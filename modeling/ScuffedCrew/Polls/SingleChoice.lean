import ScuffedCrew.Polls.Voting

/-!
# One vote for each member

Of a poll with a single choice, when no vote is created between the statements of
another call of the member, and no call is left between its own: every member has
one vote at most, and keeps it when its calls fail.
-/

namespace ScuffedCrew.Polls

open Rust Database StateMachine

variable {pollId memberId : Text} {start pool after : Pool PollStore PollCall} {turn : Turn Reply}
  {steps : List VoteStep}

/-! ## One vote at most -/

/-- A call before its second statement finds no vote of its member for another option. -/
structure Guarded (pollId : Text) (poll : Poll) (pool : Pool PollStore PollCall) : Prop where
  stored : pool.shared.polls.lookup pollId = some poll
  once : OncePerMember pool.shared.votes pollId
  cleared : ∀ request now, .create request now ∈ pool.processes → request.pollId = pollId →
    ∀ vote ∈ pool.shared.votes.rows, vote.pollId = pollId → vote.memberId = request.memberId →
      vote.optionIndex = request.optionIndex

namespace Guarded

variable {poll : Poll}

theorem atStart (stored : start.shared.polls.lookup pollId = some poll)
    (once : OncePerMember start.shared.votes pollId)
    (called : ∀ call ∈ start.processes, call.Fresh) : Guarded pollId poll start where
  stored := stored
  once := once
  cleared := by
    intro request now at_create
    exact absurd (called _ at_create) id

theorem step (guarded : Guarded pollId poll pool) (single : poll.allowMultiple = false)
    (taken : concurrentVotes.next pool turn = some after)
    (alone : VoteStep.CreatesAlone ⟨pool, turn, after⟩ pollId) : Guarded pollId poll after := by
  rcases interleaving_next_eq_some.mp taken with ⟨call, shared, moved, found, accessed, rfl⟩
  have effect := votes_of_step accessed
  refine ⟨?_, ?_, ?_⟩
  · rw [effect.polls]
    exact guarded.stored
  · intro vote vote_mem other other_mem of_poll of_poll' same
    rcases effect.new_vote vote_mem with old | ⟨request, now, rfl, works, rfl, -⟩
    · rcases effect.new_vote other_mem with old' | ⟨request, now, rfl, works, rfl, -⟩
      · exact guarded.once vote old other old' of_poll of_poll' same
      · have option := guarded.cleared request now (List.mem_of_getElem? found) of_poll' vote old
          of_poll same
        apply Indexed.eq_of_key_eq vote_mem other_mem
        exact congrArg₂ Prod.mk (Eq.trans of_poll (Eq.symm of_poll')) (congrArg₂ Prod.mk same option)
    · rcases effect.new_vote other_mem with old' | ⟨request', now', at_create, -, rfl, -⟩
      · have option := guarded.cleared request now (List.mem_of_getElem? found) of_poll other old'
          of_poll' (Eq.symm same)
        apply Indexed.eq_of_key_eq vote_mem other_mem
        exact congrArg₂ Prod.mk (Eq.trans of_poll (Eq.symm of_poll'))
          (congrArg₂ Prod.mk same (Eq.symm option))
      · rcases PollCall.create.inj at_create with ⟨rfl, rfl⟩
        rfl
  · intro request now at_create of_poll vote vote_mem vote_of_poll same
    rcases List.getElem?_of_mem at_create with ⟨position, at_position⟩
    rcases Pool.of_set at_position with ⟨-, at_create⟩ | ⟨-, before⟩
    · rcases effect.create_cases (Eq.symm at_create) with ⟨several, stored, multiple⟩ | removed
      · rw [of_poll, guarded.stored] at stored
        rcases Option.some.inj stored with rfl
        rw [single] at multiple
        cases multiple
      · have kept : request.replaces vote = false := by
          have vote_mem : vote ∈ shared.votes.rows := vote_mem
          rw [removed] at vote_mem
          exact (Indexed.mem_deleteWhere.mp vote_mem).2
        simpa [VoteRequest.replaces, vote_of_poll, of_poll, same] using kept
    · rcases effect.new_vote vote_mem with old | ⟨other, now', rfl, works, rfl, -⟩
      · exact guarded.cleared request now (List.mem_of_getElem? before) of_poll vote old
          vote_of_poll same
      · exact Eq.symm (alone other now' found vote_of_poll works request now
          (List.mem_of_getElem? before) of_poll (Eq.symm same))

end Guarded

/-! ## The vote of a member whose calls fail -/

def Voted (pollId memberId : Text) (pool : Pool PollStore PollCall) : Prop :=
  ∃ request vote, .voted request (.ok vote) ∈ pool.processes ∧ request.pollId = pollId ∧
    request.memberId = memberId

def TakenBack (vote : PollVote) (pool : Pool PollStore PollCall) : Prop :=
  ∃ request, .unvoted request (.ok ()) ∈ pool.processes ∧ request.names vote = true

/-- A call that has replaced a vote is before its second statement. -/
def Replacing (pollId memberId : Text) (steps : List VoteStep) (vote : PollVote)
    (pool : Pool PollStore PollCall) : Prop :=
  ∃ index request now, pool.processes[index]? = some (.create request now) ∧
    request.pollId = pollId ∧ request.memberId = memberId ∧
      request.optionIndex ≠ vote.optionIndex ∧ ∃ step ∈ steps, step.Replaces pollId index

/-- Until a vote of the member succeeds, its votes are those it had, less what it took back and
what a call is replacing. -/
structure Keeping (pollId memberId : Text) (start : VoteTable) (steps : List VoteStep)
    (pool : Pool PollStore PollCall) : Prop where
  old : ∀ vote ∈ pool.shared.votes.rows, vote.pollId = pollId → vote.memberId = memberId →
    vote ∈ start.rows
  kept : ∀ vote ∈ start.rows, vote.pollId = pollId → vote.memberId = memberId →
    vote ∈ pool.shared.votes.rows ∨ TakenBack vote pool ∨
      Replacing pollId memberId steps vote pool

/-- What has returned stays. -/
theorem returned_stays {call moved : PollCall} {shared : PollStore} {done : PollCall}
    (found : pool.processes[turn.process]? = some call)
    (accessed : call.step pool.shared turn.choice = some (shared, moved))
    (returned : done.Returned) (done_mem : done ∈ pool.processes) :
    done ∈ pool.processes.set turn.process moved := by
  rcases List.getElem?_of_mem done_mem with ⟨position, at_position⟩
  by_cases same : position = turn.process
  · rw [same, found] at at_position
    rcases Option.some.inj at_position with rfl
    cases call with
    | voted => cases accessed
    | unvoted => cases accessed
    | getPoll => exact absurd returned id
    | deleteOthers => exact absurd returned id
    | create => exact absurd returned id
    | deleteVote => exact absurd returned id
  · exact List.mem_of_getElem? (Eq.trans (Pool.others_stay same) at_position)

theorem Voted.step (voted : Voted pollId memberId pool)
    (taken : concurrentVotes.next pool turn = some after) : Voted pollId memberId after := by
  rcases interleaving_next_eq_some.mp taken with ⟨call, shared, moved, found, accessed, rfl⟩
  rcases voted with ⟨request, vote, voted_mem, of_poll, of_member⟩
  exact ⟨request, vote, returned_stays found accessed trivial voted_mem, of_poll, of_member⟩

theorem Keeping.step {table : VoteTable} (once : OncePerMember table pollId)
    (keeping : Keeping pollId memberId table steps pool)
    (taken : concurrentVotes.next pool turn = some after)
    (full : ReplacesInFull pollId (steps ++ [⟨pool, turn, after⟩])) :
    Voted pollId memberId after ∨
      Keeping pollId memberId table (steps ++ [⟨pool, turn, after⟩]) after := by
  rcases interleaving_next_eq_some.mp taken with ⟨call, shared, moved, found, accessed, rfl⟩
  have effect := votes_of_step accessed
  have moved_mem : moved ∈ pool.processes.set turn.process moved :=
    List.mem_of_getElem? (Pool.moved_at found)
  by_cases voted : Voted pollId memberId ⟨shared, pool.processes.set turn.process moved⟩
  · exact .inl voted
  have old : ∀ vote ∈ shared.votes.rows, vote.pollId = pollId → vote.memberId = memberId →
      vote ∈ pool.shared.votes.rows := by
    intro vote vote_mem of_poll of_member
    rcases effect.new_vote vote_mem with old | ⟨request, now, -, -, rfl, rfl⟩
    · exact old
    · exact absurd ⟨request, _, moved_mem, of_poll, of_member⟩ voted
  right
  refine ⟨fun vote vote_mem of_poll of_member =>
    keeping.old vote (old vote vote_mem of_poll of_member) of_poll of_member, ?_⟩
  intro vote vote_mem of_poll of_member
  rcases keeping.kept vote vote_mem of_poll of_member with here | taken_back | replacing
  · rcases effect.lost_vote here with stays | ⟨request, now, rfl, works, replaced, rfl⟩ |
      ⟨request, named, rfl⟩
    · exact .inl stays
    · have fields : (vote.pollId = request.pollId ∧ vote.memberId = request.memberId) ∧
          vote.optionIndex ≠ request.optionIndex := by
        simpa [VoteRequest.replaces] using replaced
      have request_poll : request.pollId = pollId := Eq.trans (Eq.symm fields.1.1) of_poll
      have request_member : request.memberId = memberId := Eq.trans (Eq.symm fields.1.2) of_member
      refine .inr (.inr ⟨turn.process, request, now, Pool.moved_at found, request_poll,
        request_member, Ne.symm fields.2, _, List.mem_append_right _ (List.mem_singleton_self _), ?_⟩)
      exact ⟨rfl, works, request, now, found, request_poll, vote, here, replaced⟩
    · exact .inr (.inl ⟨request, moved_mem, named⟩)
  · rcases taken_back with ⟨request, unvoted_mem, named⟩
    exact .inr (.inl ⟨request, returned_stays found accessed trivial unvoted_mem, named⟩)
  · rcases replacing with ⟨index, request, now, at_index, request_poll, request_member, differs,
      first, first_mem, replaces⟩
    by_cases same : index = turn.process
    · rw [same, found] at at_index
      rcases Option.some.inj at_index with rfl
      -- The call that is replacing the vote moves: it does not fail, and it is not refused either.
      cases effect with
      | fails other error failed =>
          have fails : VoteStep.CreateFails
              ⟨pool, turn, ⟨pool.shared, pool.processes.set turn.process (.voted other (.error error))⟩⟩
              index := ⟨Eq.symm same, failed, request, now, Eq.trans (congrArg _ same) found⟩
          exact absurd fails (full first (List.mem_append_left _ first_mem) _
            (List.mem_append_right _ (List.mem_singleton_self _)) index replaces)
      | refused other now' at_create refused =>
          rcases PollCall.create.inj at_create with ⟨rfl, rfl⟩
          rcases refused with ⟨holder, holder_mem, key⟩
          have holder_poll : holder.pollId = request.pollId := congrArg Prod.fst key
          have holder_member : holder.memberId = request.memberId :=
            congrArg (fun key => key.2.1) key
          have holder_option : holder.optionIndex = request.optionIndex :=
            congrArg (fun key => key.2.2) key
          have of_poll' := Eq.trans holder_poll request_poll
          have of_member' := Eq.trans holder_member request_member
          have before := keeping.old holder holder_mem of_poll' of_member'
          have same_vote := once vote vote_mem holder before of_poll of_poll'
            (Eq.trans of_member (Eq.symm of_member'))
          rw [same_vote] at differs
          exact absurd (Eq.symm holder_option) differs
      | creates other now' votes at_create =>
          rcases PollCall.create.inj at_create with ⟨rfl, rfl⟩
          exact absurd ⟨request, _, moved_mem, request_poll, request_member⟩ voted
      | unvoteFails other failed at_delete => cases at_delete
      | reads other reads => cases reads
      | replaces other now' at_delete => cases at_delete
      | unvotes other at_delete => cases at_delete
    · exact .inr (.inr ⟨index, request, now, Eq.trans (Pool.others_stay same) at_index, request_poll,
        request_member, differs, first, List.mem_append_left _ first_mem, replaces⟩)

/-! ## Single-choice polls -/

/-- Every member has one vote at most in every state reached, the results count the members that
have one, and when all calls have returned a member whose votes all failed has the vote it had,
unless it took it back. -/
theorem single_choice_kept {poll : Poll} {final : Pool PollStore PollCall}
    (stored : start.shared.polls.lookup poll.id = some poll) (single : poll.allowMultiple = false)
    (called : ∀ call ∈ start.processes, call.Fresh)
    (once : OncePerMember start.shared.votes poll.id)
    (run : concurrentVotes.Run start steps final)
    (alone : ∀ step ∈ steps, VoteStep.CreatesAlone step poll.id)
    (full : ReplacesInFull poll.id steps) :
    OncePerMember final.shared.votes poll.id ∧
      (∀ viewer, (getPollResults poll final.shared.votes viewer).totalVotes =
        (voters poll final.shared.votes).card) ∧
      ((∀ call ∈ final.processes, call.Returned) → ∀ memberId,
        (∀ request vote, .voted request (.ok vote) ∈ final.processes →
          request.pollId = poll.id → request.memberId ≠ memberId) →
        ∀ vote ∈ start.shared.votes.rows, vote.pollId = poll.id → vote.memberId = memberId →
          vote ∈ final.shared.votes.rows ∨ TakenBack vote final) := by
  have guarded : Guarded poll.id poll final :=
    run.invariant_of_forall (Guarded poll.id poll) (.atStart stored once called) alone
      fun taken alone guarded => guarded.step single taken alone
  refine ⟨guarded.once, fun viewer => totalVotes_eq_card viewer guarded.once, ?_⟩
  intro returned memberId failed vote vote_mem of_poll of_member
  have keeping : ReplacesInFull poll.id steps →
      Voted poll.id memberId final ∨
        Keeping poll.id memberId start.shared.votes steps final := by
    apply run.history (fun steps pool => ReplacesInFull poll.id steps →
      Voted poll.id memberId pool ∨ Keeping poll.id memberId start.shared.votes steps pool)
    · intro _
      exact .inr ⟨fun vote vote_mem _ _ => vote_mem, fun vote vote_mem _ _ => .inl vote_mem⟩
    · intro steps state event after taken before full
      have earlier : ReplacesInFull poll.id steps := by
        intro first first_mem last last_mem
        exact full first (List.mem_append_left _ first_mem) last (List.mem_append_left _ last_mem)
      rcases before earlier with voted | keeping
      · exact .inl (voted.step taken)
      · exact keeping.step once taken full
  rcases keeping full with ⟨request, created, voted_mem, request_poll, request_member⟩ | keeping
  · exact absurd request_member (failed request created voted_mem request_poll)
  · rcases keeping.kept vote vote_mem of_poll of_member with here | taken_back |
      ⟨index, request, now, at_create, -⟩
    · exact .inl here
    · exact .inr taken_back
    · exact absurd (returned _ (List.mem_of_getElem? at_create)) id

/-! ## Two votes, and none -/

def mapPoll : Poll := ⟨"map".toList, ["Ilios".toList, "Busan".toList, "Nepal".toList], none, false, true⟩

def noVotes : VoteTable := ⟨[], by simp⟩

/-- A member's vote for an option of the poll. -/
def voteFor (optionIndex : ℕ) : VoteRequest := ⟨mapPoll.id, "tracer".toList, optionIndex⟩

def iliosVote : VoteTable := ⟨[(voteFor 0).row 0], by simp⟩

def pollStore (votes : VoteTable) : PollStore :=
  ⟨(∅ : HashMap Text Poll).insert mapPoll.id mapPoll, votes⟩

def works (process : ℕ) : Turn Reply := ⟨process, ⟨false, 1⟩⟩

def breaks (process : ℕ) : Turn Reply := ⟨process, ⟨true, 1⟩⟩

/-- A vote that nothing interleaves with replaces the earlier one. -/
theorem vote_replaced : ∃ final, concurrentVotes.exec
    ⟨pollStore iliosVote, [.getPoll (voteFor 1)]⟩ [works 0, works 0, works 0] = some final ∧
      final.shared.votes.rows.map PollVote.optionIndex = [1] ∧
      OncePerMember final.shared.votes mapPoll.id := by
  have run : concurrentVotes.Run _ (concurrentVotes.stepsOf
      ⟨pollStore iliosVote, [.getPoll (voteFor 1)]⟩ [works 0, works 0, works 0]) _ := .of_exec rfl
  have one_call : ∀ step ∈ concurrentVotes.stepsOf
      ⟨pollStore iliosVote, [.getPoll (voteFor 1)]⟩ [works 0, works 0, works 0],
      step.before.processes.length = 1 ∧ step.event.choice.fails = false := by decide
  have alone : ∀ step ∈ concurrentVotes.stepsOf
      ⟨pollStore iliosVote, [.getPoll (voteFor 1)]⟩ [works 0, works 0, works 0],
      VoteStep.CreatesAlone step mapPoll.id := by
    intro step step_mem request now at_create _ _ other now' other_mem _ _
    rcases List.length_eq_one_iff.mp (one_call step step_mem).1 with ⟨call, single⟩
    rw [single] at at_create other_mem
    have same := Eq.trans (List.mem_singleton.mp other_mem)
      (Eq.symm (List.mem_singleton.mp (List.mem_of_getElem? at_create)))
    rcases PollCall.create.inj same with ⟨rfl, -⟩
    rfl
  have full : ReplacesInFull mapPoll.id (concurrentVotes.stepsOf
      ⟨pollStore iliosVote, [.getPoll (voteFor 1)]⟩ [works 0, works 0, works 0]) := by
    intro first _ last last_mem index _ fails
    have works := (one_call last last_mem).2
    rw [fails.2.1] at works
    cases works
  have fresh : ∀ call ∈ [PollCall.getPoll (voteFor 1)], call.Fresh := by
    intro call call_mem
    rcases List.mem_singleton.mp call_mem with rfl
    trivial
  have once : OncePerMember iliosVote mapPoll.id := by
    intro vote vote_mem other other_mem _ _ _
    exact Eq.trans (List.mem_singleton.mp vote_mem) (Eq.symm (List.mem_singleton.mp other_mem))
  exact ⟨_, rfl, rfl, (@single_choice_kept _ _ mapPoll _ rfl rfl fresh once run alone full).1⟩

/-- Both calls take out the other votes before either creates its own, and both votes are counted;
and a vote that is not created has taken the earlier one out. -/
theorem single_choice_lost :
    (∃ final, concurrentVotes.exec ⟨pollStore noVotes, [.getPoll (voteFor 0), .getPoll (voteFor 1)]⟩
        [works 0, works 0, works 1, works 1, works 0, works 1] = some final ∧
      final.shared.votes.rows.map PollVote.memberId = ["tracer".toList, "tracer".toList] ∧
      (getPollResults mapPoll final.shared.votes none).totalVotes = 2) ∧
    ∃ final, concurrentVotes.exec ⟨pollStore iliosVote, [.getPoll (voteFor 1)]⟩
        [works 0, works 0, breaks 0] = some final ∧
      (∀ call ∈ final.processes, ∃ request error, call = .voted request (.error error)) ∧
      final.shared.votes.rows = [] := by
  refine ⟨⟨_, rfl, rfl, ?_⟩, _, rfl, ?_, rfl⟩
  · rw [totalVotes_eq]
    rfl
  · intro call call_mem
    rcases List.mem_singleton.mp call_mem with rfl
    exact ⟨_, _, rfl⟩

end ScuffedCrew.Polls
