import Mathlib.Algebra.BigOperators.Group.Finset.Basic
import Mathlib.Algebra.Order.Ring.Nat
import Mathlib.Data.List.Sort
import ScuffedCrew.Database.Indexed
import ScuffedCrew.Rust.HashMap
import ScuffedCrew.Rust.Text
import ScuffedCrew.StateMachine.Pool

/-!
# Polls and their votes

The votes of a poll, of which the index keeps one for each member and option,
and the results that are counted from them.
-/

namespace ScuffedCrew.Polls

open Rust Database

structure Poll where
  id : Text
  options : List Text
  closeAt : Option ℕ
  allowMultiple : Bool
  isActive : Bool

structure PollVote where
  pollId : Text
  memberId : Text
  optionIndex : ℕ
  votedAt : ℕ
  deriving DecidableEq

/-- `poll_vote_unique_idx`. -/
def PollVote.key (vote : PollVote) : Text × Text × ℕ :=
  (vote.pollId, vote.memberId, vote.optionIndex)

abbrev VoteTable := Indexed PollVote.key

def VoteTable.ofPoll (votes : VoteTable) (pollId : Text) : List PollVote :=
  votes.rows.filter fun vote => vote.pollId == pollId

/-! ## The results -/

structure PollOptionResult where
  optionIndex : ℕ
  label : Text
  count : ℕ

structure PollResults where
  poll : Poll
  votes : List PollOptionResult
  totalVotes : ℕ
  myVotes : List ℕ

/-- The count of an option that nobody voted for is zero. -/
def optionResults (poll : Poll) (votes : VoteTable) : List PollOptionResult :=
  poll.options.zipIdx.map fun (label, index) =>
    ⟨index, label, ((votes.ofPoll poll.id).filter fun vote => vote.optionIndex == index).length⟩

def getPollResults (poll : Poll) (votes : VoteTable) (viewerMemberId : Option Text) :
    PollResults where
  poll := poll
  votes := (optionResults poll votes).mergeSort fun left right => right.count ≤ left.count
  totalVotes :=
    (((optionResults poll votes).mergeSort fun left right => right.count ≤ left.count).map
      PollOptionResult.count).sum
  myVotes :=
    match viewerMemberId with
    | none => []
    | some memberId =>
        ((votes.ofPoll poll.id).filter fun vote => vote.memberId == memberId).map
          PollVote.optionIndex

/-- The members with a vote for an option of the poll. -/
def voters (poll : Poll) (votes : VoteTable) : Finset Text :=
  (((votes.ofPoll poll.id).filter fun vote =>
    decide (vote.optionIndex < poll.options.length)).map PollVote.memberId).toFinset

/-- No member has two votes on the poll. -/
def OncePerMember (votes : VoteTable) (pollId : Text) : Prop :=
  ∀ vote ∈ votes.rows, ∀ other ∈ votes.rows, vote.pollId = pollId → other.pollId = pollId →
    vote.memberId = other.memberId → vote = other

/-- The votes counted option by option are the votes for an option below the bound. -/
theorem sum_count_lt (votes : List PollVote) (bound : ℕ) :
    ((List.range bound).map fun index =>
        (votes.filter fun vote => vote.optionIndex == index).length).sum =
      (votes.filter fun vote => decide (vote.optionIndex < bound)).length := by
  induction bound with
  | zero => simp
  | succ bound ih =>
      rw [List.range_succ, List.map_append, List.sum_append, ih]
      simp only [List.map_singleton, List.sum_singleton, ← List.countP_eq_length_filter]
      clear ih
      induction votes with
      | nil => simp
      | cons vote votes ih =>
          simp only [List.countP_cons, decide_eq_true_eq, beq_iff_eq]
          split_ifs <;> omega

theorem totalVotes_eq (poll : Poll) (votes : VoteTable) (viewer : Option Text) :
    (getPollResults poll votes viewer).totalVotes =
      ((votes.ofPoll poll.id).filter fun vote =>
        decide (vote.optionIndex < poll.options.length)).length := by
  have sorted := (List.mergeSort_perm (optionResults poll votes)
    fun left right => decide (right.count ≤ left.count)).map PollOptionResult.count
  have indices : List.range poll.options.length = poll.options.zipIdx.map Prod.snd := by
    rw [List.zipIdx_map_snd, List.range_eq_range']
  simp only [getPollResults, ← sum_count_lt]
  rw [sorted.sum_eq, optionResults, List.map_map, indices, List.map_map]
  rfl

/-- With one vote for each member the total is the number of voters. -/
theorem totalVotes_eq_card {poll : Poll} {votes : VoteTable} (viewer : Option Text)
    (once : OncePerMember votes poll.id) :
    (getPollResults poll votes viewer).totalVotes = (voters poll votes).card := by
  rw [totalVotes_eq, voters, List.toFinset_card_of_nodup, List.length_map]
  apply List.Nodup.map_on
  · intro vote vote_mem other other_mem same
    simp only [VoteTable.ofPoll, List.mem_filter, beq_iff_eq] at vote_mem other_mem
    exact once vote vote_mem.1.1 other other_mem.1.1 vote_mem.1.2 other_mem.1.2 same
  · have rows : votes.rows.Nodup := List.Nodup.of_map PollVote.key votes.unique
    exact (rows.filter _).filter _

end ScuffedCrew.Polls

/-!
## Votes at the same time

A vote on a single-choice poll takes out the member's votes for the other
options and then creates its own, in two statements.  Another vote of the member
may be created between the two, and the second may fail when the first is done.
-/

namespace ScuffedCrew.Polls

open Rust Database StateMachine

inductive DbError
  | notFound (message : Text)
  | conflict (message : Text)
  | surreal
  deriving DecidableEq

structure VoteRequest where
  pollId : Text
  memberId : Text
  optionIndex : ℕ

namespace VoteRequest

variable (request : VoteRequest) (vote : PollVote)

/-- The votes the first statement takes out. -/
def replaces : Bool :=
  vote.pollId == request.pollId && vote.memberId == request.memberId &&
    vote.optionIndex != request.optionIndex

def names : Bool :=
  vote.pollId == request.pollId && vote.memberId == request.memberId &&
    vote.optionIndex == request.optionIndex

def row (now : ℕ) : PollVote := ⟨request.pollId, request.memberId, request.optionIndex, now⟩

end VoteRequest

structure PollStore where
  polls : HashMap Text Poll
  votes : VoteTable

/-- Whether the statement fails, and the time on the clock. -/
structure Reply where
  fails : Bool
  now : ℕ

/-- A call of `vote_poll` or `unvote_poll`, by the statement it makes next. -/
inductive PollCall
  | getPoll (request : VoteRequest)
  | deleteOthers (request : VoteRequest) (now : ℕ)
  | create (request : VoteRequest) (now : ℕ)
  | voted (request : VoteRequest) (answer : Except DbError PollVote)
  | deleteVote (request : VoteRequest)
  | unvoted (request : VoteRequest) (answer : Except DbError Unit)

namespace PollCall

def closed : DbError := .conflict "Poll is closed".toList

def alreadyVoted : DbError := .conflict "You have already voted for this option".toList

/-- Where a call goes when it has the poll. -/
def afterPoll (request : VoteRequest) (now : ℕ) : Option Poll → PollCall
  | none =>
      voted request (.error (.notFound ("Poll ".toList ++ request.pollId ++ " not found".toList)))
  | some poll =>
      if !poll.isActive then voted request (.error closed)
      else if poll.closeAt.any fun closeAt => decide (closeAt ≤ now) then
        voted request (.error closed)
      else if poll.allowMultiple then create request now
      else deleteOthers request now

/-- A statement that fails changes nothing, and the call returns its error. -/
def step (store : PollStore) : PollCall → Reply → Option (PollStore × PollCall)
  | getPoll request, reply =>
      if reply.fails then some (store, voted request (.error .surreal))
      else some (store, afterPoll request reply.now (store.polls.lookup request.pollId))
  | deleteOthers request now, reply =>
      if reply.fails then some (store, voted request (.error .surreal))
      else
        some ({ store with votes := store.votes.deleteWhere request.replaces }, create request now)
  | create request now, reply =>
      if reply.fails then some (store, voted request (.error .surreal))
      else
        match store.votes.create (request.row now) with
        | none => some (store, voted request (.error alreadyVoted))
        | some votes => some ({ store with votes }, voted request (.ok (request.row now)))
  | deleteVote request, reply =>
      if reply.fails then some (store, unvoted request (.error .surreal))
      else
        some ({ store with votes := store.votes.deleteWhere request.names },
          unvoted request (.ok ()))
  | voted _ _, _ => none
  | unvoted _ _, _ => none

/-- The call has made no statement. -/
def Fresh : PollCall → Prop
  | getPoll _ | deleteVote _ => True
  | _ => False

def Returned : PollCall → Prop
  | voted _ _ | unvoted _ _ => True
  | _ => False

end PollCall

def concurrentVotes : Machine (Pool PollStore PollCall) (Turn Reply) :=
  interleaving PollCall.step

abbrev VoteStep := Step (Pool PollStore PollCall) (Turn Reply)

namespace VoteStep

variable (step : VoteStep) (pollId : Text)

/-- No vote is created while a call of the same member for another option is between its
statements. -/
def CreatesAlone : Prop :=
  ∀ request now, step.before.processes[step.event.process]? = some (.create request now) →
    request.pollId = pollId → step.event.choice.fails = false →
      ∀ other now', .create other now' ∈ step.before.processes → other.pollId = pollId →
        other.memberId = request.memberId → other.optionIndex = request.optionIndex

/-- The first statement of the call takes a vote out. -/
def Replaces (index : ℕ) : Prop :=
  step.event.process = index ∧ step.event.choice.fails = false ∧
    ∃ request now, step.before.processes[index]? = some (.deleteOthers request now) ∧
      request.pollId = pollId ∧ ∃ vote ∈ step.before.shared.votes.rows, request.replaces vote = true

/-- The second statement of the call fails. -/
def CreateFails (index : ℕ) : Prop :=
  step.event.process = index ∧ step.event.choice.fails = true ∧
    ∃ request now, step.before.processes[index]? = some (.create request now)

end VoteStep

/-- No call that has taken a vote out fails to create its own. -/
def ReplacesInFull (pollId : Text) (steps : List VoteStep) : Prop :=
  ∀ first ∈ steps, ∀ last ∈ steps, ∀ index, first.Replaces pollId index → ¬last.CreateFails index

/-! ## What a step does -/

/-- What a step does to the votes. -/
inductive Votes (store : PollStore) (call : PollCall) (reply : Reply) :
    PollStore → PollCall → Prop
  | fails (request : VoteRequest) (error : DbError) (failed : reply.fails = true)
      (voting : call = .getPoll request ∨ (∃ now, call = .deleteOthers request now) ∨
        ∃ now, call = .create request now) :
      Votes store call reply store (.voted request (.error error))
  | unvoteFails (request : VoteRequest) (failed : reply.fails = true)
      (voting : call = .deleteVote request) :
      Votes store call reply store (.unvoted request (.error .surreal))
  | reads (request : VoteRequest) (reads : call = .getPoll request) :
      Votes store call reply store
        (.afterPoll request reply.now (store.polls.lookup request.pollId))
  | replaces (request : VoteRequest) (now : ℕ) (at_delete : call = .deleteOthers request now)
      (works : reply.fails = false) :
      Votes store call reply { store with votes := store.votes.deleteWhere request.replaces }
        (.create request now)
  | refused (request : VoteRequest) (now : ℕ) (at_create : call = .create request now)
      (taken : ∃ vote ∈ store.votes.rows, vote.key = (request.row now).key) :
      Votes store call reply store (.voted request (.error PollCall.alreadyVoted))
  | creates (request : VoteRequest) (now : ℕ) (votes : VoteTable)
      (at_create : call = .create request now) (works : reply.fails = false)
      (created : store.votes.create (request.row now) = some votes) :
      Votes store call reply { store with votes } (.voted request (.ok (request.row now)))
  | unvotes (request : VoteRequest) (at_delete : call = .deleteVote request) :
      Votes store call reply { store with votes := store.votes.deleteWhere request.names }
        (.unvoted request (.ok ()))

theorem votes_of_step {store after : PollStore} {call moved : PollCall} {reply : Reply}
    (taken : call.step store reply = some (after, moved)) : Votes store call reply after moved := by
  cases call with
  | getPoll request =>
      simp only [PollCall.step] at taken
      split at taken <;> rcases Prod.mk.inj (Option.some.inj taken) with ⟨rfl, rfl⟩
      next failed => exact .fails request _ failed (.inl rfl)
      next => exact .reads request rfl
  | deleteOthers request now =>
      simp only [PollCall.step] at taken
      split at taken <;> rcases Prod.mk.inj (Option.some.inj taken) with ⟨rfl, rfl⟩
      next failed => exact .fails request _ failed (.inr (.inl ⟨now, rfl⟩))
      next works => exact .replaces request now rfl (by simpa using works)
  | create request now =>
      simp only [PollCall.step] at taken
      split at taken
      next failed =>
        rcases Prod.mk.inj (Option.some.inj taken) with ⟨rfl, rfl⟩
        exact .fails request _ failed (.inr (.inr ⟨now, rfl⟩))
      next works =>
        split at taken <;> rcases Prod.mk.inj (Option.some.inj taken) with ⟨rfl, rfl⟩
        next refused => exact .refused request now rfl (Indexed.create_eq_none.mp refused)
        next votes created => exact .creates request now votes rfl (by simpa using works) created
  | deleteVote request =>
      simp only [PollCall.step] at taken
      split at taken <;> rcases Prod.mk.inj (Option.some.inj taken) with ⟨rfl, rfl⟩
      next failed => exact .unvoteFails request failed rfl
      next => exact .unvotes request rfl
  | voted => cases taken
  | unvoted => cases taken

namespace Votes

variable {store after : PollStore} {call moved : PollCall} {reply : Reply}

theorem polls (votes : Votes store call reply after moved) : after.polls = store.polls := by
  cases votes <;> rfl

/-- A call stands before its second statement when the poll allows several votes, or when its first
statement is done. -/
theorem create_cases (votes : Votes store call reply after moved) {request : VoteRequest} {now : ℕ}
    (at_create : moved = .create request now) :
    (∃ poll, store.polls.lookup request.pollId = some poll ∧ poll.allowMultiple = true) ∨
      after.votes = store.votes.deleteWhere request.replaces := by
  cases votes with
  | reads other reads =>
      left
      cases found : store.polls.lookup other.pollId with
      | none => simp only [PollCall.afterPoll, found, reduceCtorEq] at at_create
      | some poll =>
          simp only [PollCall.afterPoll, found] at at_create
          split at at_create
          next => cases at_create
          next =>
            split at at_create
            next => cases at_create
            next =>
              split at at_create
              next several =>
                rcases PollCall.create.inj at_create with ⟨rfl, -⟩
                exact ⟨poll, found, several⟩
              next => cases at_create
  | replaces other now' =>
      right
      rcases PollCall.create.inj at_create with ⟨rfl, -⟩
      rfl
  | fails => cases at_create
  | unvoteFails => cases at_create
  | refused => cases at_create
  | creates => cases at_create
  | unvotes => cases at_create

/-- A vote that is new was created by the call. -/
theorem new_vote (votes : Votes store call reply after moved) {vote : PollVote}
    (vote_mem : vote ∈ after.votes.rows) :
    vote ∈ store.votes.rows ∨ ∃ request now, call = .create request now ∧ reply.fails = false ∧
      vote = request.row now ∧ moved = .voted request (.ok vote) := by
  cases votes with
  | fails => exact .inl vote_mem
  | unvoteFails => exact .inl vote_mem
  | reads => exact .inl vote_mem
  | replaces => exact .inl (Indexed.mem_deleteWhere.mp vote_mem).1
  | refused => exact .inl vote_mem
  | creates request now votes at_create works created =>
      rcases (Indexed.mem_create created).mp vote_mem with old | rfl
      · exact .inl old
      · exact .inr ⟨request, now, at_create, works, rfl, rfl⟩
  | unvotes => exact .inl (Indexed.mem_deleteWhere.mp vote_mem).1

/-- A vote that is gone was replaced or taken back by the call. -/
theorem lost_vote (votes : Votes store call reply after moved) {vote : PollVote}
    (vote_mem : vote ∈ store.votes.rows) :
    vote ∈ after.votes.rows ∨
      (∃ request now, call = .deleteOthers request now ∧ reply.fails = false ∧
        request.replaces vote = true ∧ moved = .create request now) ∨
      ∃ request, request.names vote = true ∧ moved = .unvoted request (.ok ()) := by
  cases votes with
  | fails => exact .inl vote_mem
  | unvoteFails => exact .inl vote_mem
  | reads => exact .inl vote_mem
  | replaces request now at_delete works =>
      cases replaced : request.replaces vote with
      | false => exact .inl (Indexed.mem_deleteWhere.mpr ⟨vote_mem, replaced⟩)
      | true => exact .inr (.inl ⟨request, now, at_delete, works, replaced, rfl⟩)
  | refused => exact .inl vote_mem
  | creates request now votes at_create works created =>
      exact .inl ((Indexed.mem_create created).mpr (.inl vote_mem))
  | unvotes request at_delete =>
      cases named : request.names vote with
      | false => exact .inl (Indexed.mem_deleteWhere.mpr ⟨vote_mem, named⟩)
      | true => exact .inr (.inr ⟨request, named, rfl⟩)

end Votes

end ScuffedCrew.Polls
