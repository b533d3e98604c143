import ScuffedCrew.Sessions.Store
import ScuffedCrew.StateMachine.CheckThenAct

/-!
# The session cap

A login leaves nine live sessions of its user and inserts the tenth.  Logins of
one user that run at the same time may each have counted before the others
insert, so the cap is exceeded by the logins that are past their count together.
-/

namespace ScuffedCrew.Sessions

open Rust Database StateMachine

namespace SessionCall

/-- A login of the user that has counted and not inserted yet. -/
def pastCount (userId : Text) : SessionCall → Bool
  | selectOldest login _ | evict login _ _ | insert login => login.userId == userId
  | _ => false

/-- The live sessions of the user that the rest of a login leaves. -/
def spared (userId : Text) (store : SessionStore) : SessionCall → ℕ
  | selectOldest _ excess => (store.liveOf userId).length - excess
  | evict _ id rest => (store.liveOf userId).countP fun row => row.id ∉ id :: rest
  | _ => (store.liveOf userId).length

end SessionCall

variable {hash : Text → Text} {userId : Text}

section store

variable {store after : SessionStore} {call other : SessionCall} {reply : Reply}

theorem liveOf_sublist {removed : Record Session → Bool}
    (rows : after.sessions.rows = store.sessions.rows.filter fun row => !removed row)
    (clock : after.clock = store.clock) :
    (after.liveOf userId).Sublist (store.liveOf userId) := by
  simp only [SessionStore.liveOf, SessionStore.live, rows, clock]
  exact List.filter_sublist.filter _

theorem spared_le (fewer : (after.liveOf userId).Sublist (store.liveOf userId)) :
    other.spared userId after ≤ other.spared userId store := by
  cases other with
  | selectOldest login excess => exact Nat.sub_le_sub_right fewer.length_le excess
  | evict login id rest => exact fewer.countP_le
  | dropExpired | countLive | insert | created | lookup | found | logout | loggedOut | countAll
  | deleteAll | revoked | countExpired | deleteExpired | cleanedUp => exact fewer.length_le

/-- A session more of the user, at most. -/
theorem liveOf_create {session : Session} (created : store.create session = some after) :
    after.liveOf userId = store.liveOf userId ∨
      session.userId = userId ∧
        after.liveOf userId = store.liveOf userId ++ [⟨store.sessions.nextId, session⟩] := by
  rcases SessionStore.sessions_create created with ⟨sessions, clock⟩
  simp only [SessionStore.liveOf, SessionStore.live, sessions, clock, Table.create,
    List.filter_append]
  by_cases counts : session.userId = userId ∧ store.clock < session.expiresAt
  · right
    simp [counts]
  · left
    simp [counts]

theorem spared_append {row : Record Session}
    (more : after.liveOf userId = store.liveOf userId ++ [row]) :
    other.spared userId after ≤ other.spared userId store + 1 := by
  have length : (after.liveOf userId).length = (store.liveOf userId).length + 1 := by
    rw [more, List.length_append, List.length_singleton]
  cases other with
  | selectOldest login excess =>
      simp only [SessionCall.spared]
      omega
  | evict login id rest =>
      simp only [SessionCall.spared, more, List.countP_append, List.countP_singleton]
      split <;> omega
  | dropExpired | countLive | insert | created | lookup | found | logout | loggedOut | countAll
  | deleteAll | revoked | countExpired | deleteExpired | cleanedUp => exact length.le

/-- The oldest sessions are distinct, so evicting them leaves the rest. -/
theorem countP_selected {ordered : List (Record Session)} {excess : ℕ}
    (perm : ordered.Perm (store.liveOf userId)) :
    (store.liveOf userId).countP (fun row => row.id ∉ (ordered.take excess).map Record.id) =
      (store.liveOf userId).length - excess := by
  have distinct : (ordered.map Record.id).Nodup := by
    apply (perm.map Record.id).nodup_iff.mpr
    exact store.sessions.distinct.sublist (List.filter_sublist.map _)
  rw [← List.take_append_drop excess ordered, List.map_append, List.nodup_append] at distinct
  rw [← perm.countP_eq, ← perm.length_eq]
  conv_lhs => rw [← List.take_append_drop excess ordered]
  rw [List.countP_append, ← List.length_drop]
  have taken : (ordered.take excess).countP
      (fun row => row.id ∉ ((ordered.take excess ++ ordered.drop excess).take excess).map
        Record.id) = 0 := by
    rw [List.take_append_drop, List.countP_eq_zero]
    intro row row_mem
    rw [decide_eq_true_iff, not_not]
    exact List.mem_map_of_mem row_mem
  have kept : (ordered.drop excess).countP
      (fun row => row.id ∉ ((ordered.take excess ++ ordered.drop excess).take excess).map
        Record.id) = (ordered.drop excess).length := by
    rw [List.take_append_drop, List.countP_eq_length]
    intro row row_mem
    rw [decide_eq_true_iff]
    intro among
    exact distinct.2.2 row.id among row.id (List.mem_map_of_mem row_mem) rfl
  rw [taken, kept, Nat.zero_add]

end store

section rules

variable {store after : SessionStore} {call next : SessionCall} {reply : Reply}
  {advance : Advance SessionStore SessionCall}

/-- A login passes its count with nine sessions to spare, or with as many to evict as are over. -/
theorem spared_afterCount {login : Login}
    (past : (SessionCall.afterCount login (store.liveOf login.userId).length).pastCount userId) :
    (SessionCall.afterCount login (store.liveOf login.userId).length).spared userId store ≤
      room := by
  unfold SessionCall.afterCount at past ⊢
  split
  next too_many =>
    rw [if_pos too_many] at past
    rcases (beq_iff_eq.mp past : login.userId = userId) with rfl
    simp only [SessionCall.spared]
    omega
  next fits =>
    rw [if_neg fits] at past
    rcases (beq_iff_eq.mp past : login.userId = userId) with rfl
    exact Nat.le_of_not_lt fits

theorem failed_pastCount {error : DbError} : (call.failed error).pastCount userId = false := by
  cases call <;> rfl

/-- Where a login goes on past its count, it spares no more than before. -/
theorem spared_statement (made : call.statement hash store reply = some (after, next))
    (past : next.pastCount userId = true) :
    call.pastCount userId = false ∧ next.spared userId after ≤ room ∨
      call.pastCount userId = true ∧ next.spared userId after ≤ call.spared userId store := by
  cases call with
  | countLive login =>
      rcases Prod.mk.inj (Option.some.inj made) with ⟨rfl, rfl⟩
      exact .inl ⟨rfl, spared_afterCount past⟩
  | selectOldest login excess =>
      simp only [SessionCall.statement] at made
      split at made
      next orders =>
        rcases Prod.mk.inj (Option.some.inj made) with ⟨rfl, rfl⟩
        have left := @countP_selected login.userId store reply.oldestFirst excess orders.1
        cases selected : (reply.oldestFirst.take excess).map Record.id with
        | nil =>
            rw [selected] at past
            cases past
        | cons id rest =>
            rw [selected] at past left
            rcases (beq_iff_eq.mp past : login.userId = userId) with rfl
            exact .inr ⟨beq_self_eq_true _, left.le⟩
      next => cases made
  | evict login id rest =>
      rcases Prod.mk.inj (Option.some.inj made) with ⟨rfl, rfl⟩
      have remaining : ((store.deleteWhere fun row => row.id == id).liveOf userId) =
          (store.liveOf userId).filter fun row => row.id ≠ id := by
        simp only [SessionStore.liveOf, SessionStore.live, SessionStore.deleteWhere,
          Table.deleteWhere, List.filter_filter]
        apply List.filter_congr
        intro row _
        rw [Bool.and_comm, decide_not]
        rfl
      cases rest with
      | nil =>
          refine .inr ⟨past, ?_⟩
          simp only [SessionCall.afterEvict, SessionCall.spared, remaining,
            ← List.countP_eq_length_filter]
          simp
      | cons second rest =>
          refine .inr ⟨past, ?_⟩
          simp only [SessionCall.afterEvict, SessionCall.spared, remaining, List.countP_filter]
          apply List.countP_mono_left
          intro row _ outside
          simpa [and_comm] using outside
  | insert login =>
      simp only [SessionCall.statement] at made
      split at made <;> rcases Prod.mk.inj (Option.some.inj made) with ⟨-, rfl⟩ <;> cases past
  | countAll | countExpired =>
      simp only [SessionCall.statement] at made
      split at made <;> rcases Prod.mk.inj (Option.some.inj made) with ⟨-, rfl⟩ <;> cases past
  | dropExpired | lookup | logout | deleteAll | deleteExpired =>
      rcases Prod.mk.inj (Option.some.inj made) with ⟨-, rfl⟩
      cases past
  | created | found | loggedOut | revoked | cleanedUp => cases made

theorem spared_step (taken : call.step hash store reply = some advance)
    (past : advance.process.pastCount userId = true) :
    call.pastCount userId = false ∧ advance.process.spared userId advance.shared ≤ room ∨
      call.pastCount userId = true ∧
        advance.process.spared userId advance.shared ≤ call.spared userId store := by
  rcases SessionCall.step_cases taken with
    ⟨after, next, made, -, ⟨error, -, stops⟩ | ⟨error, -, stops⟩ | ⟨same, goes⟩⟩
  · rw [stops, failed_pastCount] at past
    cases past
  · rw [stops, failed_pastCount] at past
    cases past
  · rw [goes] at past
    rw [goes, same]
    exact spared_statement made past

/-- Only the insert of a login of the user makes its sessions more. -/
theorem grows_by_insert (taken : call.step hash store reply = some advance) :
    (advance.shared.liveOf userId).length ≤ (store.liveOf userId).length ∧
        (∀ other : SessionCall, other.spared userId advance.shared ≤ other.spared userId store) ∨
      call.pastCount userId = true ∧ advance.process.pastCount userId = false ∧
        (store.liveOf userId).length ≤ call.spared userId store ∧
          (advance.shared.liveOf userId).length ≤ (store.liveOf userId).length + 1 ∧
            ∀ other : SessionCall,
              other.spared userId advance.shared ≤ other.spared userId store + 1 := by
  rcases SessionCall.effect_of_step taken with ⟨removed, -, rows, -, clock⟩ | ⟨login, rfl, created⟩
  · have fewer : (advance.shared.liveOf userId).Sublist (store.liveOf userId) :=
      liveOf_sublist rows clock
    exact .inl ⟨fewer.length_le, fun _ => spared_le fewer⟩
  · rcases @liveOf_create userId _ _ _ created with same | ⟨ours, more⟩
    · have fewer : (advance.shared.liveOf userId).Sublist (store.liveOf userId) := by rw [same]
      exact .inl ⟨fewer.length_le, fun _ => spared_le fewer⟩
    · refine .inr ⟨beq_iff_eq.mpr ours, ?_, Nat.le_refl _, ?_, fun _ => spared_append more⟩
      · rcases SessionCall.step_cases taken with
          ⟨after, next, made, -, ⟨error, -, stops⟩ | ⟨error, -, stops⟩ | ⟨-, goes⟩⟩
        · rw [stops, failed_pastCount]
        · rw [stops, failed_pastCount]
        · simp only [SessionCall.statement] at made
          rw [goes]
          split at made <;> rcases Prod.mk.inj (Option.some.inj made) with ⟨-, rfl⟩ <;> rfl
      · rw [more, List.length_append, List.length_singleton]

theorem liveOf_later (elapsed : ℕ) :
    (({ store with clock := store.clock + elapsed } : SessionStore).liveOf userId).Sublist
      (store.liveOf userId) := by
  apply List.monotone_filter_right
  intro row
  simp only [SessionStore.live, Bool.and_eq_true, decide_eq_true_eq]
  rintro ⟨ours, ahead⟩
  exact ⟨ours, by omega⟩

theorem checksFirst (hash : Text → Text) (userId : Text) :
    ChecksFirst (sessionTasks hash) room (fun store => (store.liveOf userId).length)
      (SessionCall.pastCount userId) (SessionCall.spared userId) where
  arrival request := by cases request <;> rfl
  spawned taken := by
    rcases SessionCall.step_cases taken with ⟨-, -, -, alone, -⟩
    rw [alone]
    simp
  change store elapsed :=
    ⟨(liveOf_later elapsed).length_le, fun _ => spared_le (liveOf_later elapsed)⟩
  checks taken before past := by
    rcases spared_step taken past with ⟨-, room⟩ | ⟨already, -⟩
    · exact room
    · cases before.symm.trans already
  clears taken before past := by
    rcases spared_step taken past with ⟨not_yet, -⟩ | ⟨-, spares⟩
    · cases not_yet.symm.trans before
    · exact spares
  acts taken := grows_by_insert taken

end rules

/-- However logins, logouts, revocations and clean-ups of all users interleave, a user has at most
nine sessions and one for each of its logins that are past their count at the same time. -/
theorem sessions_stay_near_the_cap {most : ℕ} {start final : SessionPool} {steps : List SessionStep}
    (run : (sessionTasks hash).machine.Run start steps final)
    (within : (start.shared.liveOf userId).length ≤ room + most)
    (quiet : ∀ call ∈ start.processes, call.pastCount userId = false)
    (few : ∀ step ∈ steps, step.after.processes.countP (SessionCall.pastCount userId) ≤ most) :
    (final.shared.liveOf userId).length ≤ room + most :=
  (checksFirst hash userId).level_le run within quiet few

/-- Two logins of the user that make their statements in turn. -/
def twoLogins : List SessionEvent :=
  [.arrive (.create ⟨"ana".toList, "phone".toList, 24⟩),
    .arrive (.create ⟨"ana".toList, "laptop".toList, 24⟩)] ++
  (List.replicate 5 [0, 1]).flatten.map answeredTurn

/-- Two logins that overlap leave eleven sessions. -/
theorem two_logins_near_the_cap : ∃ final,
    (sessionTasks id).machine.exec ⟨tenSessions, []⟩ twoLogins = some final ∧
      (final.shared.liveOf "ana".toList).length = 11 ∧
      (final.shared.liveOf "ana".toList).length ≤ room + 2 := by
  have eleven : ((sessionTasks id).machine.exec ⟨tenSessions, []⟩ twoLogins).map
      (fun final => (final.shared.liveOf "ana".toList).length) = some 11 := by decide
  rcases Option.map_eq_some_iff.mp eleven with ⟨final, executed, length⟩
  refine ⟨final, executed, length, ?_⟩
  exact sessions_stay_near_the_cap (.of_exec executed) (by decide) (by simp) (by decide)

end ScuffedCrew.Sessions
