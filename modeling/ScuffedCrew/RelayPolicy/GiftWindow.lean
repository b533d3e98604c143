import ScuffedCrew.RelayPolicy.GiftBudget

/-!
# The gift-wrap window

Calls of `allow` at non-decreasing times, with sweeps between them.  What a
bucket holds outside the window counts for nothing, so a sweep changes no
answer and no window of the budget's length takes more than the limit.
-/

namespace ScuffedCrew.RelayPolicy

open Rust

variable {φ : Type}

namespace GiftBudget

/-- `sweep_at`. -/
def sweepAt (budget : GiftBudget) (now : Instant) : GiftBudget :=
  { budget with
    buckets := (budget.buckets.mapValues fun _ => budget.recent now).retain fun _ stamps =>
      !stamps.isEmpty }

/-- The stamps of a key; a key without a bucket has none. -/
def stamps (budget : GiftBudget) (key : Text) : List Instant := (budget.buckets.lookup key).getD []

end GiftBudget

/-- A call of `allow`. -/
structure GiftCall (φ : Type) where
  now : Instant
  authed : Text
  frame : Json φ

namespace GiftCall

variable (call : GiftCall φ)

def keys : List Text := (recipientPubkeys call.frame).map (GiftBudget.giftKey (normalised call.authed))

/-- The frame names the recipient and comes from the sender. -/
def names (sender recipient : Text) : Bool :=
  normalised call.authed == normalised sender && (recipientPubkeys call.frame).contains recipient

end GiftCall

inductive GiftEvent (φ : Type)
  | allow (call : GiftCall φ)
  | sweep (now : Instant)

namespace GiftEvent

def time : GiftEvent φ → Instant
  | allow call => call.now
  | sweep now => now

def call? : GiftEvent φ → Option (GiftCall φ)
  | allow call => some call
  | sweep _ => none

end GiftEvent

namespace GiftBudget

/-- The calls with their answers. -/
def decisions : GiftBudget → List (GiftEvent φ) → List (GiftCall φ × Bool)
  | _, [] => []
  | budget, .sweep now :: events => decisions (budget.sweepAt now) events
  | budget, .allow call :: events =>
      (call, (budget.allow call.now call.authed call.frame).1) ::
        decisions (budget.allow call.now call.authed call.frame).2 events

/-- Nothing that still counts, now or later, is different. -/
structure Same (now : Instant) (budget other : GiftBudget) : Prop where
  limit : budget.limit = other.limit
  window : budget.window = other.window
  recent : ∀ key later, now ≤ later →
    budget.recent later (budget.stamps key) = other.recent later (other.stamps key)

variable {budget other : GiftBudget} {now later : Instant} {key target : Text}

theorem recent_recent {stamps : List Instant} (after : now ≤ later) :
    budget.recent later (budget.recent now stamps) = budget.recent later stamps := by
  unfold recent
  rw [List.filter_filter]
  apply List.filter_congr
  intro stamp _
  by_cases inside : later - stamp < budget.window
  · have earlier : now - stamp < budget.window := lt_of_le_of_lt (Nat.sub_le_sub_right after _) inside
    simp [inside, earlier]
  · simp [inside]

theorem stamps_sweepAt : (budget.sweepAt now).stamps key = budget.recent now (budget.stamps key) := by
  unfold stamps sweepAt
  rw [HashMap.lookup_retain, HashMap.lookup_mapValues]
  cases budget.buckets.lookup key with
  | none => simp [recent]
  | some stamps =>
      cases kept : budget.recent now stamps with
      | nil => simp [Option.filter, kept]
      | cons first rest => simp [Option.filter, kept]

theorem stamps_push : (budget.push now key).stamps target =
    if target = key then budget.recent now (budget.stamps key) ++ [now]
    else budget.stamps target := by
  unfold stamps push
  rw [HashMap.lookup_insert']
  split <;> rfl

theorem same_sweepAt (budget : GiftBudget) (now : Instant) : Same now (budget.sweepAt now) budget where
  limit := rfl
  window := rfl
  recent := by
    intro key later after
    rw [stamps_sweepAt]
    exact recent_recent after

namespace Same

theorem trans {third : GiftBudget} (same : Same now budget other) (also : Same now other third) :
    Same now budget third where
  limit := same.limit.trans also.limit
  window := same.window.trans also.window
  recent := fun key later after => (same.recent key later after).trans (also.recent key later after)

theorem mono (same : Same now budget other) (after : now ≤ later) : Same later budget other where
  limit := same.limit
  window := same.window
  recent := fun key last later_last => same.recent key last (le_trans after later_last)

theorem push (same : Same now budget other) (key : Text) :
    Same now (budget.push now key) (other.push now key) where
  limit := same.limit
  window := same.window
  recent := by
    intro target later after
    have pushed : ∀ stamps, (budget.push now key).recent later stamps = budget.recent later stamps :=
      fun _ => rfl
    have pushed' : ∀ stamps, (other.push now key).recent later stamps = other.recent later stamps :=
      fun _ => rfl
    rw [stamps_push, stamps_push, pushed, pushed']
    split
    next =>
      rw [same.recent key now le_rfl]
      have last : budget.recent later [now] = other.recent later [now] := by
        simp only [GiftBudget.recent, same.window]
      have front : budget.recent later (other.recent now (other.stamps key)) =
          other.recent later (other.recent now (other.stamps key)) := by
        simp only [GiftBudget.recent, same.window]
      simp only [GiftBudget.recent, List.filter_append] at last front ⊢
      rw [last, front]
    next => exact same.recent target later after

theorem foldl_push (same : Same now budget other) (keys : List Text) :
    Same now (keys.foldl (fun budget key => budget.push now key) budget)
      (keys.foldl (fun budget key => budget.push now key) other) := by
  induction keys generalizing budget other with
  | nil => exact same
  | cons key keys ih => exact ih (same.push key)

theorem count (same : Same now budget other) (key : Text) :
    budget.count now key = other.count now key :=
  congrArg List.length (same.recent key now le_rfl)

/-- Budgets that differ in expired stamps give one answer and stay the same. -/
theorem allow (same : Same now budget other) (authed : Text) (frame : Json φ) :
    (budget.allow now authed frame).1 = (other.allow now authed frame).1 ∧
      Same now (budget.allow now authed frame).2 (other.allow now authed frame).2 := by
  have full : ∀ keys : List Text, (keys.any fun key => decide (budget.limit ≤ budget.count now key)) =
      keys.any fun key => decide (other.limit ≤ other.count now key) := by
    intro keys
    simp only [same.limit, same.count]
  unfold GiftBudget.allow
  simp only [full]
  split
  next => exact ⟨rfl, same⟩
  next =>
    split
    next => exact ⟨rfl, same⟩
    next => exact ⟨rfl, same.foldl_push _⟩

end Same

/-- Without its sweeps a sequence has the same answers. -/
theorem decisions_without_sweeps {events : List (GiftEvent φ)} (same : Same now budget other)
    (ordered : (events.map GiftEvent.time).Pairwise (· ≤ ·))
    (after : ∀ event ∈ events, now ≤ event.time) :
    decisions budget events =
      decisions other ((events.filterMap GiftEvent.call?).map GiftEvent.allow) := by
  induction events generalizing budget other now with
  | nil => rfl
  | cons event events ih =>
      rcases List.forall_mem_cons.mp after with ⟨now_first, -⟩
      rcases List.pairwise_cons.mp ordered with ⟨first_least, rest_ordered⟩
      have after_first : ∀ later ∈ events, event.time ≤ later.time := fun later later_mem =>
        first_least _ (List.mem_map_of_mem later_mem)
      cases event with
      | sweep swept =>
          have still : Same swept (budget.sweepAt swept) other :=
            (same_sweepAt budget swept).trans (same.mono now_first)
          exact ih still rest_ordered after_first
      | allow call =>
          rcases (same.mono now_first).allow call.authed call.frame with ⟨one_answer, still⟩
          exact congrArg₂ List.cons (congrArg (Prod.mk call) one_answer)
            (ih still rest_ordered after_first)

/-! ## The bound -/

/-- The stamps from an instant on. -/
def since (budget : GiftBudget) (key : Text) (start : Instant) : ℕ :=
  (budget.stamps key).countP fun stamp => start ≤ stamp

variable {start : Instant}

theorem recent_of_since {stamp : Instant} (positive : 0 < budget.window)
    (inside : now < start + budget.window) (since_start : start ≤ stamp) :
    now - stamp < budget.window := by
  rcases Nat.lt_or_ge now stamp with future | past
  · rwa [Nat.sub_eq_zero_of_le (le_of_lt future)]
  · exact Nat.sub_lt_left_of_lt_add past
      (lt_of_lt_of_le inside (Nat.add_le_add_right since_start _))

theorem countP_recent (positive : 0 < budget.window) (inside : now < start + budget.window)
    (stamps : List Instant) :
    (budget.recent now stamps).countP (fun stamp => decide (start ≤ stamp)) =
      stamps.countP fun stamp => decide (start ≤ stamp) := by
  rw [recent, List.countP_filter]
  apply List.countP_congr
  intro stamp _
  simp only [Bool.and_eq_true, decide_eq_true_eq, and_iff_left_iff_imp]
  exact recent_of_since positive inside

theorem since_sweepAt (positive : 0 < budget.window) (inside : now < start + budget.window) :
    (budget.sweepAt now).since key start = budget.since key start := by
  rw [since, stamps_sweepAt, countP_recent positive inside, since]

theorem since_push (positive : 0 < budget.window) (inside : now < start + budget.window) :
    (budget.push now key).since target start =
      budget.since target start + if target = key ∧ start ≤ now then 1 else 0 := by
  rw [since, stamps_push]
  split
  next same =>
    rw [List.countP_append, countP_recent positive inside, since, same]
    by_cases started : start ≤ now <;> simp [started]
  next other => simp [since, other]

theorem since_foldl_push (keys : List Text) (positive : 0 < budget.window)
    (inside : now < start + budget.window) :
    (keys.foldl (fun budget key => budget.push now key) budget).since target start =
      budget.since target start + if start ≤ now then keys.count target else 0 := by
  induction keys generalizing budget with
  | nil => simp
  | cons key keys ih =>
      have pushed := @since_push budget now key target start positive inside
      rw [List.foldl_cons, @ih (budget.push now key) positive inside, pushed, List.count_cons]
      by_cases started : start ≤ now
      · rcases eq_or_ne target key with rfl | same
        · simp only [started, and_self, if_true, beq_self_eq_true]
          omega
        · simp [started, same, same.symm]
      · simp [started]

/-- What is counted of the stamps in a window is counted by the check. -/
theorem since_le_count (positive : 0 < budget.window) (inside : now < start + budget.window) :
    budget.since key start ≤ budget.count now key := by
  rw [since, ← countP_recent positive inside]
  exact List.countP_le_length

theorem window_foldl_push (keys : List Text) :
    (keys.foldl (fun budget key => budget.push now key) budget).window = budget.window ∧
      (keys.foldl (fun budget key => budget.push now key) budget).limit = budget.limit := by
  induction keys generalizing budget with
  | nil => exact ⟨rfl, rfl⟩
  | cons key keys ih => exact @ih (budget.push now key)

variable {call : GiftCall φ} {sender recipient : Text}

theorem allow_cases (budget : GiftBudget) (call : GiftCall φ) :
    (budget.allow call.now call.authed call.frame = (false, budget)) ∨
      (budget.allow call.now call.authed call.frame =
        (true, call.keys.foldl (fun budget key => budget.push call.now key) budget) ∧
      ∀ key ∈ call.keys, budget.count call.now key < budget.limit) := by
  unfold allow
  simp only
  split
  next empty =>
    have no_keys : call.keys = [] := by
      rw [GiftCall.keys, List.isEmpty_iff.mp empty, List.map_nil]
    right
    simp [no_keys]
  next =>
    split
    next => exact .inl rfl
    next free =>
      right
      refine ⟨rfl, ?_⟩
      intro key key_mem
      by_contra full
      exact free (List.any_eq_true.mpr ⟨key, key_mem, by simpa using Nat.le_of_not_lt full⟩)

theorem key_mem_keys (named : call.names sender recipient = true) :
    giftKey (normalised sender) recipient ∈ call.keys := by
  simp only [GiftCall.names, Bool.and_eq_true, beq_iff_eq, List.contains_iff_mem] at named
  rw [GiftCall.keys, named.1]
  exact List.mem_map_of_mem named.2

/-- The accepted frames of a sender that name a recipient at a time in the window. -/
def counts (sender recipient : Text) (start : Instant) (window : Duration)
    (decision : GiftCall φ × Bool) : Bool :=
  decision.2 && decision.1.names sender recipient && decide (start ≤ decision.1.now) &&
    decide (decision.1.now < start + window)

theorem countP_decisions_le {events : List (GiftEvent φ)} {taken : ℕ}
    (positive : 0 < budget.window) (ordered : (events.map GiftEvent.time).Pairwise (· ≤ ·))
    (after : ∀ event ∈ events, now ≤ event.time)
    (so_far : now < start + budget.window →
      taken ≤ budget.since (giftKey (normalised sender) recipient) start)
    (bounded : taken ≤ budget.limit) :
    taken + (decisions budget events).countP (counts sender recipient start budget.window) ≤
      budget.limit := by
  induction events generalizing budget now taken with
  | nil => simpa [decisions] using bounded
  | cons event events ih =>
      rcases List.forall_mem_cons.mp after with ⟨now_first, -⟩
      rcases List.pairwise_cons.mp ordered with ⟨first_least, rest_ordered⟩
      have after_first : ∀ later ∈ events, event.time ≤ later.time := fun later later_mem =>
        first_least _ (List.mem_map_of_mem later_mem)
      cases event with
      | sweep swept =>
          refine @ih (budget.sweepAt swept) swept taken positive rest_ordered after_first ?_ bounded
          intro inside
          rw [since_sweepAt positive inside]
          exact so_far (lt_of_le_of_lt now_first inside)
      | allow call =>
          rw [decisions, List.countP_cons]
          rcases allow_cases budget call with refused | ⟨accepted, free⟩
          · simp only [refused]
            have uncounted : counts sender recipient start budget.window (call, false) = false := rfl
            rw [uncounted]
            exact ih positive rest_ordered after_first
              (fun inside => so_far (lt_of_le_of_lt now_first inside)) bounded
          · simp only [accepted]
            rcases @window_foldl_push budget call.now call.keys with ⟨window, limit⟩
            cases counted : counts sender recipient start budget.window (call, true) with
            | false =>
                have rest := @ih _ call.now taken (window.symm ▸ positive) rest_ordered after_first
                  (by
                    intro inside
                    rw [window] at inside
                    rw [since_foldl_push _ positive inside]
                    exact le_trans (so_far (lt_of_le_of_lt now_first inside)) (Nat.le_add_right _ _))
                  (limit.symm ▸ bounded)
                rw [window, limit] at rest
                simpa using rest
            | true =>
                simp only [counts, Bool.and_eq_true, decide_eq_true_eq] at counted
                rcases counted with ⟨⟨⟨-, named⟩, started⟩, inside⟩
                have its_key := key_mem_keys named
                have room := lt_of_le_of_lt (since_le_count positive inside) (free _ its_key)
                have before := so_far (lt_of_le_of_lt now_first inside)
                have rest := @ih _ call.now (taken + 1) (window.symm ▸ positive) rest_ordered
                  after_first
                  (by
                    intro _
                    rw [since_foldl_push _ positive inside, if_pos started]
                    have charged := List.count_pos_iff.mpr its_key
                    omega)
                  (by rw [limit]; omega)
                rw [window, limit] at rest
                rw [if_pos rfl]
                omega

end GiftBudget

open GiftBudget

/-- **No window of the budget's length takes more frames of a sender to a recipient than the limit,
a refused frame charges nobody, and sweeps change no answer.** -/
theorem gift_budget_bounds (limit windowSecs : ℕ) (events : List (GiftEvent φ))
    (ordered : (events.map GiftEvent.time).Pairwise (· ≤ ·)) :
    (∀ sender recipient start,
        (decisions (.new limit windowSecs) events).countP
          (counts sender recipient start (Duration.fromSecs windowSecs)) ≤ limit) ∧
      (∀ (budget : GiftBudget) (call : GiftCall φ),
        (budget.allow call.now call.authed call.frame).1 = false →
          (budget.allow call.now call.authed call.frame).2 = budget) ∧
      ∀ others : List (GiftEvent φ), (others.map GiftEvent.time).Pairwise (· ≤ ·) →
        others.filterMap GiftEvent.call? = events.filterMap GiftEvent.call? →
          decisions (.new limit windowSecs) others = decisions (.new limit windowSecs) events := by
  have same : ∀ budget : GiftBudget, Same 0 budget budget := fun _ => ⟨rfl, rfl, fun _ _ _ => rfl⟩
  refine ⟨?_, ?_, ?_⟩
  · intro sender recipient start
    rcases Nat.eq_zero_or_pos (Duration.fromSecs windowSecs) with empty | positive
    · have none_counted : (decisions (.new limit windowSecs) events).countP
          (counts sender recipient start (Duration.fromSecs windowSecs)) = 0 := by
        rw [List.countP_eq_zero]
        intro decision _ counted
        simp only [counts, empty, Bool.and_eq_true, decide_eq_true_eq] at counted
        exact absurd counted.2 (Nat.not_lt_of_le counted.1.2)
      rw [none_counted]
      exact Nat.zero_le _
    · have bound := @countP_decisions_le φ (.new limit windowSecs) 0 start sender recipient events 0
        positive ordered (fun event _ => Nat.zero_le event.time) (fun _ => Nat.zero_le _)
        (Nat.zero_le _)
      rwa [Nat.zero_add] at bound
  · intro budget call refused
    rcases allow_cases budget call with kept | ⟨accepted, -⟩
    · rw [kept]
    · rw [accepted] at refused
      cases refused
  · intro others others_ordered same_calls
    rw [decisions_without_sweeps (same _) others_ordered fun event _ => Nat.zero_le event.time,
      decisions_without_sweeps (same _) ordered fun event _ => Nat.zero_le event.time, same_calls]

/-- A wrap for one recipient, sent at an instant. -/
def wrapAt (now : Instant) : GiftCall Empty where
  now
  authed := List.replicate 64 'a'
  frame := .array [.string "EVENT".toList, .object [("tags".toList,
    .array [.array [.string "p".toList, .string (List.replicate 64 'b')]])]]

theorem gift_budget_bounds_two_wraps :
    (decisions (.new 1 60) [.allow (wrapAt 0), .sweep 5, .allow (wrapAt 5)]).countP
        (counts (List.replicate 64 'a') (List.replicate 64 'b') 0 (Duration.fromSecs 60)) ≤ 1 ∧
      decisions (.new 1 60) [.allow (wrapAt 0), .allow (wrapAt 5)] =
        decisions (.new 1 60) [.allow (wrapAt 0), .sweep 5, .allow (wrapAt 5)] := by
  have bounds := gift_budget_bounds 1 60 [.allow (wrapAt 0), .sweep 5, .allow (wrapAt 5)] (by decide)
  exact ⟨bounds.1 _ _ _, bounds.2.2 [.allow (wrapAt 0), .allow (wrapAt 5)] (by decide) rfl⟩

/-- The second wrap of the window is refused. -/
example : (decisions (.new 1 60) [.allow (wrapAt 0), .sweep 5, .allow (wrapAt 5)]).map Prod.snd =
    [true, false] := by
  decide

end ScuffedCrew.RelayPolicy
