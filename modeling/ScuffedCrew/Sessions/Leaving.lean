import ScuffedCrew.Sessions.Store

/-!
# How sessions come and go

A row enters the table by the insert of a login and is never changed.  It leaves
when it has expired, or by a logout with its token, a revocation, or a login of
its user that has counted too many and selected it among the oldest.
-/

namespace ScuffedCrew.Sessions

open Rust Database StateMachine

/-- The call at the place makes its next statement. -/
def Moves (step : SessionStep) (index : ℕ) (call : SessionCall) : Prop :=
  (∃ reply, step.event = .turn index reply) ∧ step.before.processes[index]? = some call

/-- The login inserts the row. -/
def InsertedBy (hash : Text → Text) (step : SessionStep) (row : Record Session) : Prop :=
  ∃ index reply login, step.event = .turn index reply ∧
    step.before.processes[index]? = some (.insert login) ∧
      row = ⟨step.before.shared.sessions.nextId, SessionCall.row hash login reply⟩

section step

variable {hash : Text → Text} {pool after : SessionPool} {event : SessionEvent}
  {row : Record Session}

theorem nextId_le (taken : (sessionTasks hash).machine.next pool event = some after) :
    pool.shared.sessions.nextId ≤ after.shared.sessions.nextId := by
  rcases Tasks.effect_of_next taken with _ | ⟨-, moved⟩ | _
  · exact Nat.le_refl _
  · rcases SessionCall.effect_of_step moved with ⟨-, -, -, nextId, -⟩ | ⟨login, -, created⟩
    · exact nextId.ge
    · rw [(SessionStore.sessions_create created).1]
      exact Nat.le_succ _
  · exact Nat.le_refl _

theorem clock_le (taken : (sessionTasks hash).machine.next pool event = some after) :
    pool.shared.clock ≤ after.shared.clock := by
  rcases Tasks.effect_of_next taken with _ | ⟨-, moved⟩ | elapsed
  · exact le_refl _
  · rcases SessionCall.effect_of_step moved with ⟨-, -, -, -, clock⟩ | ⟨login, -, created⟩
    · exact clock.ge
    · exact (SessionStore.sessions_create created).2.ge
  · exact Int.le_add_of_nonneg_right (Int.natCast_nonneg elapsed)

/-- A row of the table was there before, or is inserted. -/
theorem mem_after (taken : (sessionTasks hash).machine.next pool event = some after)
    (row_mem : row ∈ after.shared.sessions.rows) :
    row ∈ pool.shared.sessions.rows ∨ InsertedBy hash ⟨pool, event, after⟩ row := by
  rcases Tasks.effect_of_next taken with _ | @⟨index, call, reply, advance, found, moved⟩ | _
  · exact .inl row_mem
  · rcases SessionCall.effect_of_step moved with ⟨removed, -, rows, -, -⟩ | ⟨login, rfl, created⟩
    · rw [rows] at row_mem
      exact .inl (List.mem_of_mem_filter row_mem)
    · rw [(SessionStore.sessions_create created).1] at row_mem
      rcases List.mem_append.mp row_mem with old | new
      · exact .inl old
      · exact .inr ⟨index, reply, login, rfl, found, List.mem_singleton.mp new⟩
  · exact .inl row_mem

/-- A row that is not in the table any more was taken out by a statement. -/
theorem removed_by (taken : (sessionTasks hash).machine.next pool event = some after)
    (row_mem : row ∈ pool.shared.sessions.rows) :
    row ∈ after.shared.sessions.rows ∨ ∃ index call, Moves ⟨pool, event, after⟩ index call ∧
      call.Removes hash pool.shared row := by
  rcases Tasks.effect_of_next taken with _ | @⟨index, call, reply, advance, found, moved⟩ | _
  · exact .inl row_mem
  · rcases SessionCall.effect_of_step moved with
      ⟨removed, allowed, rows, -, -⟩ | ⟨login, -, created⟩
    · cases gone : removed row with
      | false =>
          rw [rows, List.mem_filter, gone]
          exact .inl ⟨row_mem, rfl⟩
      | true => exact .inr ⟨index, call, ⟨⟨reply, rfl⟩, found⟩, allowed row gone⟩
    · rw [(SessionStore.sessions_create created).1]
      exact .inl (List.mem_append_left _ row_mem)
  · exact .inl row_mem

end step

section run

variable {hash : Text → Text} {start final : SessionPool} {steps : List SessionStep}
  {row : Record Session}

theorem nextId_le_of_run (run : (sessionTasks hash).machine.Run start steps final) :
    start.shared.sessions.nextId ≤ final.shared.sessions.nextId :=
  run.invariant (fun pool => start.shared.sessions.nextId ≤ pool.shared.sessions.nextId)
    (Nat.le_refl _) fun taken before => before.trans (nextId_le taken)

theorem clock_le_of_run (run : (sessionTasks hash).machine.Run start steps final) :
    start.shared.clock ≤ final.shared.clock :=
  run.invariant (fun pool => start.shared.clock ≤ pool.shared.clock) (le_refl _)
    fun taken before => before.trans (clock_le taken)

theorem mem_of_run (run : (sessionTasks hash).machine.Run start steps final)
    (row_mem : row ∈ final.shared.sessions.rows) :
    row ∈ start.shared.sessions.rows ∨ ∃ step ∈ steps, InsertedBy hash step row := by
  induction run with
  | refl => exact .inl row_mem
  | snoc run taken ih =>
      rcases mem_after taken row_mem with before | inserted
      · rcases ih before with old | ⟨step, step_mem, inserted⟩
        · exact .inl old
        · exact .inr ⟨step, List.mem_append_left _ step_mem, inserted⟩
      · exact .inr ⟨_, by simp, inserted⟩

end run

/-! ## Revocation -/

section revocation

variable {hash : Text → Text} {userId : Text} {before middle final : SessionPool} {index count : ℕ}
  {first second : List SessionStep}

/-- The sessions of the user are all newer than an id. -/
def OnlyAfter (userId : Text) (bound : ℕ) (store : SessionStore) : Prop :=
  ∀ row ∈ store.sessions.rows, row.value.userId = userId → bound ≤ row.id

theorem OnlyAfter.next {bound : ℕ} {pool after : SessionPool} {event : SessionEvent}
    (only : OnlyAfter userId bound pool.shared) (later : bound ≤ pool.shared.sessions.nextId)
    (taken : (sessionTasks hash).machine.next pool event = some after) :
    OnlyAfter userId bound after.shared := by
  intro row row_mem ours
  rcases mem_after taken row_mem with old | ⟨-, -, -, -, -, rfl⟩
  · exact only row old ours
  · exact later

/-- Where a revocation that is made at the place can be. -/
inductive Revoking (userId : Text) (bound : ℕ) (store : SessionStore) : SessionCall → Prop
  | counts : Revoking userId bound store (.countAll userId)
  | deletes (count : ℕ) : Revoking userId bound store (.deleteAll userId count)
  | fails (error : DbError) : Revoking userId bound store (.revoked userId (.error error))
  | ends (count : ℕ) (only : OnlyAfter userId bound store) :
      Revoking userId bound store (.revoked userId (.ok count))

theorem Revoking.step {bound : ℕ} {store : SessionStore} {call : SessionCall} {reply : Reply}
    {advance : Advance SessionStore SessionCall} (revoking : Revoking userId bound store call)
    (taken : call.step hash store reply = some advance) :
    Revoking userId bound advance.shared advance.process := by
  rcases SessionCall.step_cases taken with ⟨after, next, made, -, cases⟩
  cases revoking with
  | counts =>
      rcases cases with ⟨error, -, stops⟩ | ⟨error, -, stops⟩ | ⟨same, goes⟩
      · exact stops ▸ .fails error
      · exact stops ▸ .fails error
      · rw [same, goes]
        simp only [SessionCall.statement] at made
        split at made
        next none_left =>
          rcases Prod.mk.inj (Option.some.inj made) with ⟨rfl, rfl⟩
          refine .ends 0 fun row row_mem ours => ?_
          exact absurd (beq_iff_eq.mpr ours) (List.countP_eq_zero.mp none_left row row_mem)
        next =>
          rcases Prod.mk.inj (Option.some.inj made) with ⟨rfl, rfl⟩
          exact .deletes _
  | deletes count =>
      rcases cases with ⟨error, -, stops⟩ | ⟨error, -, stops⟩ | ⟨same, goes⟩
      · exact stops ▸ .fails error
      · exact stops ▸ .fails error
      · rw [same, goes]
        rcases Prod.mk.inj (Option.some.inj made) with ⟨rfl, rfl⟩
        refine .ends count fun row row_mem ours => ?_
        exact absurd (List.mem_filter.mp row_mem).2 (by simp [ours])
  | fails error => cases made
  | ends count only => cases made

theorem revoking_of_run {bound : ℕ} (run : (sessionTasks hash).machine.Run before first middle)
    (later : bound ≤ before.shared.sessions.nextId)
    (asked : before.processes[index]? = some (.countAll userId)) :
    ∃ call, middle.processes[index]? = some call ∧ Revoking userId bound middle.shared call := by
  induction run with
  | refl => exact ⟨_, asked, .counts⟩
  | @snoc steps pool after event run taken ih =>
      rcases ih with ⟨call, found, revoking⟩
      have reached := later.trans (nextId_le_of_run run)
      have kept : Revoking userId bound after.shared call := by
        cases revoking with
        | counts => exact .counts
        | deletes count => exact .deletes count
        | fails error => exact .fails error
        | ends count only => exact .ends count (only.next reached taken)
      rcases Tasks.effect_of_next taken with _ | @⟨other, moving, reply, advance, here, moved⟩ | _
      · refine ⟨call, ?_, kept⟩
        have inside := (List.getElem?_eq_some_iff.mp found).1
        rwa [List.getElem?_append_left inside]
      · by_cases same : index = other
        · rcases same with rfl
          rcases Option.some.inj (found.symm.trans here) with rfl
          exact ⟨advance.process, Pool.moved_among here, revoking.step moved⟩
        · exact ⟨call, Pool.others_among found same, kept⟩
      · exact ⟨call, found, kept⟩

theorem row_of_resolve {store : SessionStore} {token : Text}
    (opens : store.resolve token = some userId) : ∃ row ∈ store.sessions.rows,
      row.value.token = token ∧ row.value.userId = userId ∧ store.clock < row.value.expiresAt := by
  rcases Option.map_eq_some_iff.mp opens with ⟨row, found, ours⟩
  have matching := List.find?_some found
  rw [Bool.and_eq_true, beq_iff_eq, SessionStore.live, decide_eq_true_iff] at matching
  exact ⟨row, List.mem_of_find?_eq_some found, matching.1, ours, matching.2⟩

/-- A revocation that has answered leaves the user no session from before it began: a token that
opens one later is that of a login that has inserted since. -/
theorem revoked_sessions_stay_out {rawToken : Text}
    (during : (sessionTasks hash).machine.Run before first middle)
    (later : (sessionTasks hash).machine.Run middle second final)
    (asked : before.processes[index]? = some (.countAll userId))
    (answered : middle.processes[index]? = some (.revoked userId (.ok count)))
    (opens : final.shared.resolve (hash rawToken) = some userId) :
    ∃ step ∈ first ++ second, ∃ row, InsertedBy hash step row ∧ row ∈ final.shared.sessions.rows ∧
      row.value.token = hash rawToken ∧ row.value.userId = userId ∧
        final.shared.clock < row.value.expiresAt := by
  rcases revoking_of_run during (Nat.le_refl _) asked with ⟨call, found, revoking⟩
  rcases Option.some.inj (found.symm.trans answered) with rfl
  have reached : before.shared.sessions.nextId ≤ middle.shared.sessions.nextId :=
    nextId_le_of_run during
  have only : OnlyAfter userId before.shared.sessions.nextId final.shared := by
    cases revoking with
    | ends _ only =>
        have both := later.invariant
          (fun pool => before.shared.sessions.nextId ≤ pool.shared.sessions.nextId ∧
            OnlyAfter userId before.shared.sessions.nextId pool.shared) ⟨reached, only⟩
          fun taken held => ⟨held.1.trans (nextId_le taken), held.2.next held.1 taken⟩
        exact both.2
  rcases row_of_resolve opens with ⟨row, row_mem, same_token, ours, ahead⟩
  rcases mem_of_run (during.trans later) row_mem with old | ⟨step, step_mem, inserted⟩
  · exact absurd (only row row_mem ours) (Nat.not_le_of_lt (before.shared.sessions.fresh row old))
  · exact ⟨step, step_mem, row, inserted, row_mem, same_token, ours, ahead⟩

end revocation

/-- A revocation, a login of the user that begins in between, and what the two leave. -/
def revocationTurns : List SessionEvent :=
  [answeredTurn 0, .arrive (.create ⟨"ana".toList, "phone".toList, 24⟩), answeredTurn 0]

def revocationBegins : SessionPool := ⟨tenSessions, [.countAll "ana".toList]⟩

def afterRevocation : SessionPool :=
  ((sessionTasks id).machine.exec revocationBegins revocationTurns).getD revocationBegins

def afterLogin : SessionPool :=
  ((sessionTasks id).machine.exec afterRevocation (List.replicate 3 (answeredTurn 1))).getD
    afterRevocation

theorem a_login_after_a_revocation : afterLogin.shared.resolve "t0".toList = none ∧
    ∃ step row, InsertedBy id step row ∧ row ∈ afterLogin.shared.sessions.rows ∧
      row.value.token = "phone".toList ∧ row.value.userId = "ana".toList := by
  refine ⟨by decide, ?_⟩
  have during : (sessionTasks id).machine.Run revocationBegins _ afterRevocation :=
    .of_exec (rfl : (sessionTasks id).machine.exec _ revocationTurns = _)
  have later : (sessionTasks id).machine.Run afterRevocation _ afterLogin :=
    .of_exec (rfl : (sessionTasks id).machine.exec _ (List.replicate 3 (answeredTurn 1)) = _)
  rcases revoked_sessions_stay_out during later (rfl : revocationBegins.processes[0]? = _)
    (rfl : afterRevocation.processes[0]? = some (.revoked _ (.ok 10)))
    (by decide : afterLogin.shared.resolve (id "phone".toList) = _) with
    ⟨step, -, row, inserted, row_mem, same_token, ours, -⟩
  exact ⟨step, row, inserted, row_mem, same_token, ours⟩

/-! ## Reasons to leave -/

/-- The login at the place has counted more live sessions of its user than it leaves. -/
def Counted (steps : List SessionStep) (index : ℕ) (login : Login) (excess : ℕ) : Prop :=
  0 < excess ∧ ∃ step ∈ steps, Moves step index (.countLive login) ∧
    (step.before.shared.liveOf login.userId).length = room + excess

/-- It has then selected the row, which was live and had fewer older ones than there were too
many. -/
def Selected (steps : List SessionStep) (index : ℕ) (login : Login) (row : Record Session) : Prop :=
  ∃ excess, Counted steps index login excess ∧
    ∃ step ∈ steps, Moves step index (.selectOldest login excess) ∧
      row ∈ step.before.shared.liveOf login.userId ∧
        (step.before.shared.liveOf login.userId).countP
          (fun other => other.value.createdAt < row.value.createdAt) < excess

/-- What a login that is past its count goes by. -/
def Grounded (steps : List SessionStep) (store : SessionStore) (index : ℕ) : SessionCall → Prop
  | .selectOldest login excess => Counted steps index login excess
  | .evict login id rest => ∀ other ∈ id :: rest, other < store.sessions.nextId ∧
      ∀ row ∈ store.sessions.rows, row.id = other → Selected steps index login row
  | _ => True

section grounds

variable {hash : Text → Text} {steps : List SessionStep} {index excess : ℕ} {login : Login}
  {row : Record Session} {store after : SessionStore} {last : SessionStep}

theorem Counted.mono (counted : Counted steps index login excess) :
    Counted (steps ++ [last]) index login excess := by
  rcases counted with ⟨too_many, step, step_mem, moves, length⟩
  exact ⟨too_many, step, List.mem_append_left _ step_mem, moves, length⟩

theorem Selected.mono (selected : Selected steps index login row) :
    Selected (steps ++ [last]) index login row := by
  rcases selected with ⟨excess, counted, step, step_mem, moves, row_mem, fewer⟩
  exact ⟨excess, counted.mono, step, List.mem_append_left _ step_mem, moves, row_mem, fewer⟩

theorem Selected.ours (selected : Selected steps index login row) :
    login.userId = row.value.userId := by
  rcases selected with ⟨excess, counted, step, step_mem, moves, row_mem, fewer⟩
  exact (SessionStore.mem_liveOf.mp row_mem).2.1.symm

/-- Ids that are not given out again keep what they were selected for. -/
theorem Grounded.mono {call : SessionCall} (grounded : Grounded steps store index call)
    (later : store.sessions.nextId ≤ after.sessions.nextId)
    (rows : ∀ row ∈ after.sessions.rows,
      row ∈ store.sessions.rows ∨ store.sessions.nextId ≤ row.id) :
    Grounded (steps ++ [last]) after index call := by
  cases call with
  | selectOldest login excess => exact Counted.mono grounded
  | evict login id rest =>
      intro other other_mem
      rcases grounded other other_mem with ⟨given, selected⟩
      refine ⟨given.trans_le later, fun row row_mem same => ?_⟩
      rcases rows row row_mem with old | new
      · exact (selected row old same).mono
      · exact absurd (same ▸ new) (Nat.not_le_of_lt given)
  | dropExpired | countLive | insert | created | lookup | found | logout | loggedOut | countAll
  | deleteAll | revoked | countExpired | deleteExpired | cleanedUp => trivial

/-- A row among the first of an order has fewer older ones than are taken. -/
theorem countP_older {ordered rows : List (Record Session)} (perm : ordered.Perm rows)
    (sorted : ordered.Pairwise fun one other => one.value.createdAt ≤ other.value.createdAt)
    (row_mem : row ∈ ordered.take excess) :
    rows.countP (fun other => other.value.createdAt < row.value.createdAt) < excess := by
  rcases List.getElem_of_mem row_mem with ⟨place, inside, rfl⟩
  rw [List.length_take] at inside
  have among : place < ordered.length := by omega
  rw [← perm.countP_eq, List.getElem_take]
  have split : ∀ older : Record Session → Bool, ordered.countP older =
      (ordered.take place).countP older + (ordered.drop place).countP older := by
    intro older
    rw [← List.countP_append, List.take_append_drop]
  have none_later : (ordered.drop place).countP
      (fun other => other.value.createdAt < ordered[place].value.createdAt) = 0 := by
    rw [List.countP_eq_zero]
    intro other other_mem
    rcases List.getElem_of_mem other_mem with ⟨offset, within, rfl⟩
    rw [List.length_drop] at within
    rw [List.getElem_drop, decide_eq_true_iff, not_lt]
    rcases Nat.eq_zero_or_pos offset with rfl | positive
    · exact le_refl _
    · exact List.pairwise_iff_getElem.mp sorted place (place + offset) among (by omega) (by omega)
  have earlier := @List.countP_le_length _
    (fun other => decide (other.value.createdAt < ordered[place].value.createdAt))
    (ordered.take place)
  rw [List.length_take] at earlier
  rw [split, none_later]
  omega

theorem grounded_failed {call : SessionCall} {error : DbError} :
    Grounded steps store index (call.failed error) := by
  cases call <;> trivial

/-- A login goes on by what it went by before, and by the statement it has just made. -/
theorem Grounded.statement {call next : SessionCall} {reply : Reply}
    (grounded : Grounded steps last.before.shared index call) (moves : Moves last index call)
    (made : call.statement hash last.before.shared reply = some (after, next)) :
    Grounded (steps ++ [last]) after index next := by
  have last_mem : last ∈ steps ++ [last] := by simp
  cases call with
  | countLive login =>
      rcases Prod.mk.inj (Option.some.inj made) with ⟨rfl, rfl⟩
      unfold SessionCall.afterCount
      split
      next too_many => exact ⟨Nat.sub_pos_of_lt too_many, last, last_mem, moves, by omega⟩
      next => trivial
  | selectOldest login excess =>
      simp only [SessionCall.statement] at made
      split at made
      next orders =>
        rcases Prod.mk.inj (Option.some.inj made) with ⟨rfl, rfl⟩
        cases chosen : (reply.oldestFirst.take excess).map Record.id with
        | nil => trivial
        | cons id rest =>
            intro other other_mem
            rw [← chosen] at other_mem
            rcases List.mem_map.mp other_mem with ⟨oldest, among, rfl⟩
            have is_live := orders.1.mem_iff.mp (List.mem_of_mem_take among)
            have stored := (SessionStore.mem_liveOf.mp is_live).1
            refine ⟨last.before.shared.sessions.fresh oldest stored, fun row row_mem same => ?_⟩
            rcases List.inj_on_of_nodup_map last.before.shared.sessions.distinct row_mem stored same
            exact ⟨excess, Counted.mono grounded, last, last_mem, moves, is_live,
              countP_older orders.1 orders.2 among⟩
      next => cases made
  | evict login id rest =>
      rcases Prod.mk.inj (Option.some.inj made) with ⟨rfl, rfl⟩
      cases rest with
      | nil => trivial
      | cons second rest =>
          have others : Grounded steps last.before.shared index (.evict login second rest) :=
            fun other other_mem => grounded other (List.mem_cons_of_mem _ other_mem)
          exact others.mono (Nat.le_refl _) fun row row_mem => .inl (List.mem_of_mem_filter row_mem)
  | insert login =>
      simp only [SessionCall.statement] at made
      split at made <;> rcases Prod.mk.inj (Option.some.inj made) with ⟨-, rfl⟩ <;> trivial
  | countAll | countExpired =>
      simp only [SessionCall.statement] at made
      split at made <;> rcases Prod.mk.inj (Option.some.inj made) with ⟨-, rfl⟩ <;> trivial
  | dropExpired | lookup | logout | deleteAll | deleteExpired =>
      rcases Prod.mk.inj (Option.some.inj made) with ⟨-, rfl⟩
      trivial
  | created | found | loggedOut | revoked | cleanedUp => cases made

end grounds

section leaving

variable {hash : Text → Text} {start middle final : SessionPool}
  {first second steps : List SessionStep} {row : Record Session}

theorem grounded_of_run (run : (sessionTasks hash).machine.Run start steps final)
    (quiet : ∀ call ∈ start.processes, ∃ request : SessionRequest, call = request.call) :
    ∀ (index : ℕ) (call : SessionCall), final.processes[index]? = some call →
      Grounded steps final.shared index call := by
  have arrives : ∀ {steps : List SessionStep} {store : SessionStore} {index : ℕ}
      (request : SessionRequest), Grounded steps store index request.call := by
    intro steps store index request
    cases request <;> trivial
  induction run with
  | refl =>
      intro index call found
      rcases quiet call (List.mem_of_getElem? found) with ⟨request, rfl⟩
      exact arrives request
  | @snoc steps pool after event run taken ih =>
      intro index call found
      have kept : ∀ call, pool.processes[index]? = some call →
          Grounded (steps ++ [⟨pool, event, after⟩]) after.shared index call := by
        intro call before
        refine (ih index call before).mono (nextId_le taken) fun row row_mem => ?_
        rcases mem_after taken row_mem with old | ⟨-, -, -, -, -, rfl⟩
        · exact .inl old
        · exact .inr (Nat.le_refl _)
      rcases Tasks.effect_of_next taken with
        request | @⟨other, moving, reply, advance, here, moved⟩ | _
      · rcases Nat.lt_or_ge index pool.processes.length with inside | later
        · rw [List.getElem?_append_left inside] at found
          exact kept call found
        · rw [List.getElem?_append_right later] at found
          rcases List.mem_singleton.mp (List.mem_of_getElem? found) with rfl
          exact arrives request
      · rcases SessionCall.step_cases moved with ⟨store, next, made, alone, ends⟩
        rcases Pool.of_set_append found with ⟨rfl, rfl⟩ | ⟨-, before⟩ | ⟨-, is_new⟩
        · rcases ends with ⟨error, -, stops⟩ | ⟨error, -, stops⟩ | ⟨same, goes⟩
          · rw [stops]
            exact grounded_failed
          · rw [stops]
            exact grounded_failed
          · rw [goes, same]
            refine Grounded.statement ?_ ⟨⟨reply, rfl⟩, here⟩ made
            exact ih index moving here
        · exact kept call before
        · rw [alone] at is_new
          cases is_new
      · exact kept call found

/-- What takes a row that has not expired out of the table, after earlier steps. -/
inductive LeavesBy (hash : Text → Text) (earlier : List SessionStep) (row : Record Session)
    (step : SessionStep) : Prop where
  | logout (index : ℕ) (rawToken : Text) (moves : Moves step index (.logout rawToken))
      (ours : row.value.token = hash rawToken)
  | revocation (index count : ℕ) (moves : Moves step index (.deleteAll row.value.userId count))
  | eviction (index : ℕ) (login : Login) (rest : List ℕ)
      (moves : Moves step index (.evict login row.id rest))
      (ours : login.userId = row.value.userId) (selected : Selected earlier index login row)

/-- A session leaves the table when it has expired, by a logout with its token, by a revocation of
its user, or by a login of its user that had counted too many and found it among the oldest. -/
theorem sessions_leave_for_a_reason (before : (sessionTasks hash).machine.Run start first middle)
    (after : (sessionTasks hash).machine.Run middle second final)
    (quiet : ∀ call ∈ start.processes, ∃ request : SessionRequest, call = request.call)
    (stored : row ∈ middle.shared.sessions.rows) (gone : row ∉ final.shared.sessions.rows) :
    row.value.expiresAt ≤ final.shared.clock ∨ ∃ earlier step later,
      second = earlier ++ step :: later ∧ LeavesBy hash (first ++ earlier) row step := by
  induction after with
  | refl => exact absurd stored gone
  | @snoc steps pool last event run taken ih =>
      by_cases still : row ∈ pool.shared.sessions.rows
      · rcases removed_by taken still with kept | ⟨index, call, moves, removes⟩
        · exact absurd kept gone
        · have grounded := grounded_of_run (before.trans run) quiet index call moves.2
          have at_end : steps ++ [⟨pool, event, last⟩] = steps ++ ⟨pool, event, last⟩ :: [] := rfl
          cases call with
          | dropExpired login => exact .inl (removes.2.trans (clock_le taken))
          | deleteExpired count => exact .inl (le_trans removes (clock_le taken))
          | logout rawToken =>
              exact .inr ⟨steps, _, [], at_end, .logout index rawToken moves removes⟩
          | deleteAll userId count =>
              rcases (removes : row.value.userId = userId) with rfl
              exact .inr ⟨steps, _, [], at_end, .revocation index count moves⟩
          | evict login id rest =>
              rcases (removes : row.id = id) with rfl
              have selected := (grounded row.id List.mem_cons_self).2 row still rfl
              exact .inr ⟨steps, _, [], at_end,
                .eviction index login rest moves selected.ours selected⟩
          | countLive | selectOldest | insert | created | lookup | found | loggedOut | countAll
          | revoked | countExpired | cleanedUp => cases removes
      · rcases ih still with expired | ⟨earlier, step, later, rfl, leaves⟩
        · exact .inl (expired.trans (clock_le taken))
        · exact .inr ⟨earlier, step, later ++ [⟨pool, event, last⟩], by simp, leaves⟩

end leaving

/-- A login that finds ten sessions. -/
def eleventhLogin : SessionPool := ⟨tenSessions, [.dropExpired ⟨"ana".toList, "phone".toList, 24⟩]⟩

/-- The oldest of the ten leaves by the login. -/
theorem the_oldest_session_leaves : ∃ steps final,
    (sessionTasks id).machine.Run eleventhLogin steps final ∧
      final.shared.resolve "t0".toList = none ∧ ∃ earlier step later,
        steps = earlier ++ step :: later ∧
          LeavesBy id earlier ⟨0, ⟨"ana".toList, "t0".toList, 1000, 0⟩⟩ step := by
  have gone : ((sessionTasks id).machine.exec eleventhLogin (List.replicate 5 (answeredTurn 0))).map
      (fun final => (final.shared.resolve "t0".toList, final.shared.sessions.rows.map Record.id,
        final.shared.clock)) = some (none, [1, 2, 3, 4, 5, 6, 7, 8, 9, 10], 20) := by decide
  rcases Option.map_eq_some_iff.mp gone with ⟨final, executed, seen⟩
  rcases Prod.mk.inj seen with ⟨closed, seen⟩
  rcases Prod.mk.inj seen with ⟨ids, clock⟩
  have run : (sessionTasks id).machine.Run eleventhLogin _ final := .of_exec executed
  refine ⟨_, final, run, closed, ?_⟩
  have away : (⟨0, ⟨"ana".toList, "t0".toList, 1000, 0⟩⟩ : Record Session) ∉
      final.shared.sessions.rows := by
    intro row_mem
    exact absurd (ids ▸ List.mem_map_of_mem row_mem) (by decide)
  rcases sessions_leave_for_a_reason .refl run
    (by simpa [eleventhLogin] using ⟨.create _, rfl⟩) (by decide) away with expired | left
  · rw [clock] at expired
    exact absurd expired (by decide)
  · exact left

end ScuffedCrew.Sessions
