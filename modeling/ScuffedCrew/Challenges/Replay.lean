import ScuffedCrew.Challenges.Token
import ScuffedCrew.Rust.HashMap
import ScuffedCrew.StateMachine.Tasks

/-!
# Challenges of Nostr logins and links

The server signs challenges and takes signed events back for them.  A call reads
the clock to check its token and again to check its event, and a third time
before it takes the lock of the consumed challenges, where markers that have
expired at that time are dropped.  Other calls come in between.
-/

namespace ScuffedCrew.Challenges

open Rust StateMachine

/-- `EVENT_MAX_AGE_SECS`. -/
def eventMaxAgeSecs : ℕ := challengeTtlSecs

def eventFutureSkewSecs : ℕ := 60

/-- `CONSUMED_CHALLENGE_TTL`. -/
def consumedChallengeTtl : Duration := Duration.fromSecs (eventMaxAgeSecs + eventFutureSkewSecs)

def checkEventFreshness (createdAt now : ℕ) : Except Text Unit :=
  if saturatingAdd 64 now eventFutureSkewSecs < createdAt then
    .error "event timestamp is in the future (outside window)".toList
  else if eventMaxAgeSecs < now - createdAt then
    .error "event too old / timestamp outside window".toList
  else .ok ()

/-- A Nostr event, and whether its id and its signature are right. -/
structure SignedEvent where
  kind : ℕ
  content : Text
  createdAt : ℕ
  verifies : Bool
  pubkey : Text

/-- A request to log in, or to link the key to a member. -/
structure Attempt where
  subject : Subject
  token : Text
  event : SignedEvent

inductive Refusal
  | token (message : Text)
  | subject
  | kind
  | content
  | event
  | stale (message : Text)
  | used
  deriving DecidableEq

inductive Purpose
  | login
  | verify
  deriving DecidableEq

def Purpose.start : Purpose → Text
  | login => "scuffedclan-login:".toList
  | verify => "scuffedclan-verify:".toList

/-- The random bytes of a challenge in hexadecimal. -/
structure Nonce where
  hex : Text
  digits : hex.all isAsciiHexdigit = true

/-- The challenge as the server signs it at a time. -/
def Nonce.sign (nonce : Nonce) (purpose : Purpose) (subject : Subject) (now : Instant) :
    SignedToken where
  challenge := purpose.start ++ nonce.hex
  no_bar := by
    rw [List.mem_append, not_or]
    constructor
    · cases purpose <;> decide
    · intro bar_mem
      exact absurd (List.all_eq_true.mp nonce.digits '|' bar_mem) (by decide)
  subject := subject
  signedAt := now

/-- The time, in nanoseconds since the epoch, and the challenges with the time their markers
expire.  What has been signed is not kept by the code. -/
structure ChallengeServer where
  clock : Instant
  consumed : HashMap Text Instant
  signed : List SignedToken

namespace ChallengeServer

def start (clock : Instant) : ChallengeServer := ⟨clock, ∅, []⟩

/-- `consume`, with the time read before the lock. -/
def consume (server : ChallengeServer) (challenge : Text) (now : Instant) :
    Bool × ChallengeServer :=
  let live := server.consumed.retain fun _ expiry => now < expiry
  if (live.lookup challenge).isSome then (false, { server with consumed := live })
  else (true, { server with consumed := live.insert challenge (now + consumedChallengeTtl) })

end ChallengeServer

/-- A call, by what it does next.  `checked` is the time at which it checked its token. -/
inductive ChallengeCall
  | sign (purpose : Purpose) (subject : Subject)
  | signed (token : Text)
  | checkToken (attempt : Attempt)
  | checkFreshness (attempt : Attempt) (challenge : Text) (checked : Instant)
  | readClock (attempt : Attempt) (challenge : Text) (checked : Instant)
  | consume (attempt : Attempt) (challenge : Text) (checked now : Instant)
  | accepted (attempt : Attempt) (challenge : Text)
  | refused (attempt : Attempt) (refusal : Refusal)

namespace ChallengeCall

/-- The checks of a call that has its token's challenge and subject. -/
def afterToken (attempt : Attempt) (challenge memberId : Text) (now : Instant) : ChallengeCall :=
  if memberId ≠ attempt.subject.text then refused attempt .subject
  else if attempt.event.kind ≠ 22242 then refused attempt .kind
  else if attempt.event.content ≠ challenge then refused attempt .content
  else if !attempt.event.verifies then refused attempt .event
  else checkFreshness attempt challenge now

variable {Mac : Type} [DecidableEq Mac] (crypto : ChallengeCrypto Mac)

/-- The random bytes are drawn where a challenge is signed, and no challenge is drawn twice. -/
def step (server : ChallengeServer) (call : ChallengeCall) (nonce : Nonce) :
    Option (Advance ChallengeServer ChallengeCall) :=
  match call with
  | sign purpose subject =>
      let new := nonce.sign purpose subject server.clock
      if server.signed.any fun old => old.challenge = new.challenge then none
      else
        some ⟨{ server with signed := server.signed ++ [new] }, signed (new.token crypto), []⟩
  | checkToken attempt =>
      match verifyChallengeToken crypto attempt.token (Duration.asSecs server.clock) with
      | .error message => some ⟨server, refused attempt (.token message), []⟩
      | .ok (challenge, memberId) =>
          some ⟨server, afterToken attempt challenge memberId server.clock, []⟩
  | checkFreshness attempt challenge checked =>
      match checkEventFreshness attempt.event.createdAt (Duration.asSecs server.clock) with
      | .error message => some ⟨server, refused attempt (.stale message), []⟩
      | .ok () => some ⟨server, readClock attempt challenge checked, []⟩
  | readClock attempt challenge checked =>
      some ⟨server, consume attempt challenge checked server.clock, []⟩
  | consume attempt challenge _ now =>
      match server.consume challenge now with
      | (true, server) => some ⟨server, accepted attempt challenge, []⟩
      | (false, server) => some ⟨server, refused attempt .used, []⟩
  | signed _ => none
  | accepted _ _ => none
  | refused _ _ => none

end ChallengeCall

inductive ChallengeRequest
  | challenge (purpose : Purpose) (subject : Subject)
  | verify (attempt : Attempt)

def ChallengeRequest.call : ChallengeRequest → ChallengeCall
  | challenge purpose subject => .sign purpose subject
  | verify attempt => .checkToken attempt

/-- The calls of the two challenge handlers and the two verify handlers, while time goes on. -/
def challengeTasks {Mac : Type} [DecidableEq Mac] (crypto : ChallengeCrypto Mac) :
    Tasks ChallengeServer ChallengeCall ChallengeRequest Nonce ℕ where
  arrival := ChallengeRequest.call
  step := ChallengeCall.step crypto
  change server elapsed := { server with clock := server.clock + elapsed }

abbrev ChallengePool : Type := Pool ChallengeServer ChallengeCall

abbrev ChallengeEvent : Type := TaskEvent ChallengeRequest Nonce ℕ

abbrev ChallengeStep : Type := Step ChallengePool ChallengeEvent

/-! ## What holds of the calls -/

/-- Time goes on, and what was signed stays signed. -/
structure Later (server after : ChallengeServer) : Prop where
  clock : server.clock ≤ after.clock
  signed : ∀ one ∈ server.signed, one ∈ after.signed

/-- The challenge was signed for the subject of the attempt before its token was checked, and had
not expired then; the event answers it. -/
structure Backed (server : ChallengeServer) (attempt : Attempt) (challenge : Text)
    (checked : Instant) : Prop where
  past : checked ≤ server.clock
  signed : ∃ one ∈ server.signed, one.challenge = challenge ∧
    one.subject.text = attempt.subject.text ∧ one.signedAt ≤ checked ∧
      Duration.asSecs checked ≤ one.expiresTs
  kind : attempt.event.kind = 22242
  content : attempt.event.content = challenge
  verifies : attempt.event.verifies = true

/-- The event was fresh at some time after the token was checked. -/
def FreshSince (server : ChallengeServer) (attempt : Attempt) (checked : Instant) : Prop :=
  ∃ time, checked ≤ time ∧ time ≤ server.clock ∧
    checkEventFreshness attempt.event.createdAt (Duration.asSecs time) = .ok ()

/-- What the checks of a call have shown. -/
def Shown (server : ChallengeServer) : ChallengeCall → Prop
  | .checkFreshness attempt challenge checked => Backed server attempt challenge checked
  | .readClock attempt challenge checked =>
      Backed server attempt challenge checked ∧ FreshSince server attempt checked
  | .consume attempt challenge checked now =>
      Backed server attempt challenge checked ∧ FreshSince server attempt checked ∧
        checked ≤ now ∧ now ≤ server.clock
  | .accepted attempt challenge => ∃ checked,
      Backed server attempt challenge checked ∧ FreshSince server attempt checked
  | _ => True

section shown

variable {server after : ChallengeServer} {attempt : Attempt} {challenge : Text}
  {checked : Instant} {call : ChallengeCall}

theorem Backed.mono (backed : Backed server attempt challenge checked)
    (later : Later server after) :
    Backed after attempt challenge checked := by
  rcases backed.signed with ⟨one, one_mem, holds⟩
  exact ⟨backed.past.trans later.clock, ⟨one, later.signed one one_mem, holds⟩, backed.kind,
    backed.content, backed.verifies⟩

theorem FreshSince.mono (fresh : FreshSince server attempt checked) (later : Later server after) :
    FreshSince after attempt checked := by
  rcases fresh with ⟨time, since, past, holds⟩
  exact ⟨time, since, past.trans later.clock, holds⟩

theorem Shown.mono (shown : Shown server call) (later : Later server after) : Shown after call := by
  cases call with
  | checkFreshness attempt challenge checked => exact Backed.mono shown later
  | readClock attempt challenge checked => exact ⟨shown.1.mono later, shown.2.mono later⟩
  | consume attempt challenge checked now =>
      rcases shown with ⟨backed, fresh, since, past⟩
      exact ⟨backed.mono later, fresh.mono later, since, past.trans later.clock⟩
  | accepted attempt challenge =>
      rcases shown with ⟨checked, backed, fresh⟩
      exact ⟨checked, backed.mono later, fresh.mono later⟩
  | sign | signed | checkToken | refused => trivial

/-- What has been signed was signed in the past, each challenge once. -/
structure SignedOnce (server : ChallengeServer) : Prop where
  past : ∀ one ∈ server.signed, one.signedAt ≤ server.clock
  once : ∀ one ∈ server.signed, ∀ other ∈ server.signed, one.challenge = other.challenge →
    one = other

end shown

section step

variable {Mac : Type} [DecidableEq Mac] {crypto : ChallengeCrypto Mac}
  {server : ChallengeServer} {call : ChallengeCall} {nonce : Nonce}
  {advance : Advance ChallengeServer ChallengeCall}

/-- A step signs, consumes, or leaves the server as it is. -/
inductive Effect (server : ChallengeServer) (call : ChallengeCall) (nonce : Nonce)
    (after : ChallengeServer) : Prop where
  | signs (purpose : Purpose) (subject : Subject) (signing : call = .sign purpose subject)
      (new : ∀ old ∈ server.signed,
        old.challenge ≠ (nonce.sign purpose subject server.clock).challenge)
      (same : after =
        { server with signed := server.signed ++ [nonce.sign purpose subject server.clock] })
  | consumes (attempt : Attempt) (challenge : Text) (checked now : Instant)
      (consuming : call = .consume attempt challenge checked now)
      (same : after = (server.consume challenge now).2)
  | keeps (same : after = server)

theorem effect_of_step (taken : call.step crypto server nonce = some advance) :
    Effect server call nonce advance.shared ∧ advance.spawned = [] := by
  cases call with
  | sign purpose subject =>
      simp only [ChallengeCall.step] at taken
      split at taken
      next => cases taken
      next new =>
        rcases Option.some.inj taken with rfl
        refine ⟨.signs purpose subject rfl ?_ rfl, rfl⟩
        intro old old_mem same
        exact new (List.any_eq_true.mpr ⟨old, old_mem, decide_eq_true same⟩)
  | checkToken attempt =>
      simp only [ChallengeCall.step] at taken
      split at taken <;> rcases Option.some.inj taken with rfl <;> exact ⟨.keeps rfl, rfl⟩
  | checkFreshness attempt challenge checked =>
      simp only [ChallengeCall.step] at taken
      split at taken <;> rcases Option.some.inj taken with rfl <;> exact ⟨.keeps rfl, rfl⟩
  | readClock attempt challenge checked =>
      rcases Option.some.inj taken with rfl
      exact ⟨.keeps rfl, rfl⟩
  | consume attempt challenge checked now =>
      simp only [ChallengeCall.step] at taken
      split at taken
      next consumed =>
        rcases Option.some.inj taken with rfl
        exact ⟨.consumes attempt challenge checked now rfl (by rw [consumed]), rfl⟩
      next consumed =>
        rcases Option.some.inj taken with rfl
        exact ⟨.consumes attempt challenge checked now rfl (by rw [consumed]), rfl⟩
  | signed | accepted | refused => cases taken

theorem later_consume (challenge : Text) (now : Instant) :
    (server.consume challenge now).2.clock = server.clock ∧
      (server.consume challenge now).2.signed = server.signed := by
  unfold ChallengeServer.consume
  dsimp only
  split <;> exact ⟨rfl, rfl⟩

theorem later_of_effect {after : ChallengeServer} (effect : Effect server call nonce after) :
    Later server after := by
  cases effect with
  | signs purpose subject _ _ same =>
      rw [same]
      exact ⟨Nat.le_refl _, fun one one_mem => List.mem_append_left _ one_mem⟩
  | consumes attempt challenge checked now _ same =>
      rw [same]
      rcases @later_consume server challenge now with ⟨clock, signed⟩
      exact ⟨clock.ge, fun one one_mem => signed ▸ one_mem⟩
  | keeps same =>
      rw [same]
      exact ⟨Nat.le_refl _, fun _ one_mem => one_mem⟩

theorem SignedOnce.step {after : ChallengeServer} (once : SignedOnce server)
    (effect : Effect server call nonce after) : SignedOnce after := by
  cases effect with
  | signs purpose subject _ new same =>
      rcases same with rfl
      constructor
      · intro one one_mem
        rcases List.mem_append.mp one_mem with old | last
        · exact once.past one old
        · rcases List.mem_singleton.mp last with rfl
          exact Nat.le_refl _
      · intro one one_mem other other_mem challenges
        rcases List.mem_append.mp one_mem with old | last
        · rcases List.mem_append.mp other_mem with old' | last'
          · exact once.once one old other old' challenges
          · rcases List.mem_singleton.mp last' with rfl
            exact absurd challenges (new one old)
        · rcases List.mem_singleton.mp last with rfl
          rcases List.mem_append.mp other_mem with old' | last'
          · exact absurd challenges.symm (new other old')
          · exact (List.mem_singleton.mp last').symm
  | consumes attempt challenge checked now _ same =>
      rcases same with rfl
      rcases @later_consume server challenge now with ⟨clock, signed⟩
      constructor
      · rw [signed, clock]
        exact once.past
      · rw [signed]
        exact once.once
  | keeps same =>
      rcases same with rfl
      exact once

theorem shown_afterToken {attempt : Attempt} {challenge memberId : Text}
    (once : SignedOnce server) (unforged : Unforged crypto server.signed attempt.token)
    (verified : verifyChallengeToken crypto attempt.token (Duration.asSecs server.clock) =
      .ok (challenge, memberId)) :
    Shown server (ChallengeCall.afterToken attempt challenge memberId server.clock) := by
  unfold ChallengeCall.afterToken
  split
  next => trivial
  next ours =>
    split
    next => trivial
    next kind =>
      split
      next => trivial
      next content =>
        split
        next => trivial
        next verifies =>
          rcases not_not.mp ours with rfl
          rcases signed_of_verify unforged verified with
            ⟨one, one_mem, challenges, subjects, current, -⟩
          exact ⟨Nat.le_refl _,
            ⟨one, one_mem, challenges, subjects, once.past one one_mem, current⟩,
            not_not.mp kind, not_not.mp content, by simpa using verifies⟩

/-- What a step shows. -/
theorem shown_step (once : SignedOnce server) (shown : Shown server call)
    (unforged : ∀ attempt, call = .checkToken attempt →
      Unforged crypto server.signed attempt.token)
    (taken : call.step crypto server nonce = some advance) :
    Shown advance.shared advance.process := by
  have later := later_of_effect (effect_of_step taken).1
  cases call with
  | sign purpose subject =>
      simp only [ChallengeCall.step] at taken
      split at taken
      · cases taken
      · rcases Option.some.inj taken with rfl
        trivial
  | checkToken attempt =>
      simp only [ChallengeCall.step] at taken
      split at taken
      next =>
        rcases Option.some.inj taken with rfl
        trivial
      next challenge memberId verified =>
        rcases Option.some.inj taken with rfl
        exact shown_afterToken once (unforged attempt rfl) verified
  | checkFreshness attempt challenge checked =>
      simp only [ChallengeCall.step] at taken
      split at taken
      next =>
        rcases Option.some.inj taken with rfl
        trivial
      next fresh =>
        rcases Option.some.inj taken with rfl
        exact ⟨shown, server.clock, Backed.past shown, Nat.le_refl _, fresh⟩
  | readClock attempt challenge checked =>
      rcases Option.some.inj taken with rfl
      exact ⟨shown.1, shown.2, shown.1.past, Nat.le_refl _⟩
  | consume attempt challenge checked now =>
      simp only [ChallengeCall.step] at taken
      split at taken
      next =>
        rcases Option.some.inj taken with rfl
        exact ⟨checked, shown.1.mono later, shown.2.1.mono later⟩
      next =>
        rcases Option.some.inj taken with rfl
        trivial
  | signed | accepted | refused => cases taken

end step

/-! ## Runs -/

/-- The call that makes the step. -/
def moving (step : ChallengeStep) : Option ChallengeCall :=
  match step.event with
  | .turn index _ => step.before.processes[index]?
  | _ => none

namespace ChallengeCall

/-- The token the call is about to check. -/
def presented : ChallengeCall → Option Text
  | checkToken attempt => some attempt.token
  | _ => none

/-- When the call, which is about to take the lock, has checked its token. -/
def lastChecked : ChallengeCall → Option Instant
  | consume _ _ checked _ => some checked
  | _ => none

end ChallengeCall

/-- The token that a call checks has no hash of anything the server has not signed. -/
def NothingForged {Mac : Type} (crypto : ChallengeCrypto Mac) (step : ChallengeStep) : Prop :=
  ∀ token ∈ (moving step).bind ChallengeCall.presented,
    Unforged crypto step.before.shared.signed token

/-- A call takes the lock less than 59 seconds after it has checked its token. -/
def Prompt (step : ChallengeStep) : Prop :=
  ∀ checked ∈ (moving step).bind ChallengeCall.lastChecked,
    step.before.shared.clock < checked + Duration.fromSecs 59

instance (step : ChallengeStep) : Decidable (Prompt step) :=
  inferInstanceAs (Decidable (∀ checked ∈ _, _))

/-- What all calls have shown. -/
structure AllShown (pool : ChallengePool) : Prop where
  once : SignedOnce pool.shared
  shown : ∀ call ∈ pool.processes, Shown pool.shared call

section runs

variable {Mac : Type} [DecidableEq Mac] {crypto : ChallengeCrypto Mac}
  {pool after final : ChallengePool} {event : ChallengeEvent} {steps : List ChallengeStep}
  {clock : Instant} {attempt : Attempt} {challenge : Text}

theorem later_of_next (taken : (challengeTasks crypto).machine.next pool event = some after) :
    Later pool.shared after.shared := by
  rcases Tasks.effect_of_next taken with _ | ⟨-, moved⟩ | elapsed
  · exact ⟨Nat.le_refl _, fun _ one_mem => one_mem⟩
  · exact later_of_effect (effect_of_step moved).1
  · exact ⟨Nat.le_add_right _ elapsed, fun _ one_mem => one_mem⟩

theorem AllShown.next (all : AllShown pool)
    (taken : (challengeTasks crypto).machine.next pool event = some after)
    (unforged : NothingForged crypto ⟨pool, event, after⟩) : AllShown after := by
  have later := later_of_next taken
  rcases Tasks.effect_of_next taken with
    request | @⟨index, call, nonce, advance, found, moved⟩ | elapsed
  · refine ⟨all.once, fun call call_mem => ?_⟩
    rcases List.mem_append.mp call_mem with old | new
    · exact all.shown call old
    · rcases List.mem_singleton.mp new with rfl
      cases request <;> trivial
  · rcases effect_of_step moved with ⟨effect, alone⟩
    refine ⟨all.once.step effect, fun other other_mem => ?_⟩
    rcases List.getElem?_of_mem other_mem with ⟨place, at_place⟩
    rcases Pool.of_set_append at_place with ⟨-, rfl⟩ | ⟨-, before⟩ | ⟨-, is_new⟩
    · apply shown_step all.once (all.shown call (List.mem_of_getElem? found)) _ moved
      rintro attempt rfl
      exact unforged attempt.token (by simp [moving, found, ChallengeCall.presented])
    · exact (all.shown other (List.mem_of_getElem? before)).mono later
    · rw [alone] at is_new
      cases is_new
  · refine ⟨⟨fun one one_mem => (all.once.past one one_mem).trans later.clock, all.once.once⟩, ?_⟩
    exact fun call call_mem => (all.shown call call_mem).mono later

theorem allShown_start : AllShown ⟨.start clock, []⟩ :=
  ⟨⟨by simp [ChallengeServer.start], by simp [ChallengeServer.start]⟩, by simp⟩

/-- An attempt that is accepted answers a challenge that the server has signed for its subject, with
an event of its own that was made no more than a minute ahead of the clock and is not old. -/
theorem accepted_as_signed
    (run : (challengeTasks crypto).machine.Run ⟨.start clock, []⟩ steps final)
    (unforged : ∀ step ∈ steps, NothingForged crypto step)
    (accepted : .accepted attempt challenge ∈ final.processes) :
    ∃ one ∈ final.shared.signed, ∃ checked time, one.challenge = challenge ∧
      one.subject.text = attempt.subject.text ∧ one.signedAt ≤ checked ∧
      Duration.asSecs checked ≤ one.expiresTs ∧ checked ≤ time ∧ time ≤ final.shared.clock ∧
      attempt.event.kind = 22242 ∧ attempt.event.content = challenge ∧
      attempt.event.verifies = true ∧
      attempt.event.createdAt ≤ Duration.asSecs time + eventFutureSkewSecs ∧
      Duration.asSecs time ≤ attempt.event.createdAt + eventMaxAgeSecs := by
  have all : AllShown final := by
    apply run.invariant_of_forall AllShown allShown_start unforged
    exact fun taken unforged all => all.next taken unforged
  rcases all.shown _ accepted with ⟨checked, backed, time, since, past, fresh⟩
  rcases backed.signed with ⟨one, one_mem, challenges, subjects, signedAt, current⟩
  refine ⟨one, one_mem, checked, time, challenges, subjects, signedAt, current, since, past,
    backed.kind, backed.content, backed.verifies, ?_⟩
  unfold checkEventFreshness at fresh
  split at fresh
  next => cases fresh
  next skew =>
    split at fresh
    next => cases fresh
    next age =>
      have saturates : saturatingAdd 64 (Duration.asSecs time) eventFutureSkewSecs ≤
          Duration.asSecs time + eventFutureSkewSecs := Nat.min_le_left _ _
      omega

end runs

/-! ## Single use -/

/-- The marker of the challenge outlives the token, unless it is later than that already. -/
def Marked (server : ChallengeServer) (challenge : Text) : Prop :=
  ∃ one ∈ server.signed, one.challenge = challenge ∧
    (one.signedAt + consumedChallengeTtl ≤ server.clock ∨
      ∃ expiry, server.consumed.lookup challenge = some expiry ∧
        one.signedAt + consumedChallengeTtl ≤ expiry)

section single

variable {server after : ChallengeServer} {challenge other : Text} {now : Instant}

/-- What is looked up after a consume: the new marker, or an old one that has not expired. -/
theorem lookup_consume : (server.consume other now).2.consumed.lookup challenge =
    if challenge = other ∧ (server.consume other now).1 = true then
      some (now + consumedChallengeTtl)
    else (server.consumed.lookup challenge).filter fun expiry => now < expiry := by
  unfold ChallengeServer.consume
  dsimp only
  split
  next => simp [HashMap.lookup_retain]
  next =>
    rw [HashMap.lookup_insert', HashMap.lookup_retain]
    simp

theorem consume_eq_true : (server.consume challenge now).1 = true ↔
    ∀ expiry, server.consumed.lookup challenge = some expiry → expiry ≤ now := by
  unfold ChallengeServer.consume
  dsimp only
  rw [HashMap.lookup_retain]
  cases server.consumed.lookup challenge with
  | none => simp
  | some expiry =>
      by_cases live : now < expiry
      · simp [live]
      · simp [live, Nat.le_of_not_lt live]

theorem Marked.consume (marked : Marked server challenge) (past : now ≤ server.clock)
    (since : ∀ one ∈ server.signed, one.challenge = challenge → challenge = other →
      one.signedAt ≤ now) :
    Marked (server.consume other now).2 challenge := by
  rcases marked with ⟨one, one_mem, same, overdue | ⟨expiry, found, late⟩⟩
  · rcases @later_consume server other now with ⟨clock, signed⟩
    exact ⟨one, signed ▸ one_mem, same, .inl (clock ▸ overdue)⟩
  · rcases @later_consume server other now with ⟨clock, signed⟩
    refine ⟨one, signed ▸ one_mem, same, ?_⟩
    rw [lookup_consume, clock, found]
    split
    next renewed =>
      have after_signing := since one one_mem same renewed.1
      exact .inr ⟨_, rfl, Nat.add_le_add_right after_signing _⟩
    next =>
      by_cases live : now < expiry
      · exact .inr ⟨expiry, by simp [live], late⟩
      · exact .inl (late.trans ((Nat.le_of_not_lt live).trans past))

theorem Marked.mono (marked : Marked server challenge) (later : Later server after)
    (same : after.consumed = server.consumed) : Marked after challenge := by
  rcases marked with ⟨one, one_mem, challenges, overdue | found⟩
  · exact ⟨one, later.signed one one_mem, challenges, .inl (overdue.trans later.clock)⟩
  · exact ⟨one, later.signed one one_mem, challenges, .inr (same ▸ found)⟩

/-- A token is good for less than 301 seconds, so 59 more pass before its marker can go. -/
theorem outlives (signedAt checked clock : ℕ)
    (current : Duration.asSecs checked ≤ Duration.asSecs signedAt + challengeTtlSecs)
    (overdue : signedAt + consumedChallengeTtl ≤ clock) : checked + Duration.fromSecs 59 ≤ clock := by
  simp only [Duration.asSecs, Duration.fromSecs, consumedChallengeTtl, eventMaxAgeSecs,
    eventFutureSkewSecs, challengeTtlSecs] at *
  omega

/-- A call that is prompt finds the marker of the challenge. -/
theorem not_consumed_again {attempt : Attempt} {checked : Instant} (once : SignedOnce server)
    (marked : Marked server challenge) (backed : Backed server attempt challenge checked)
    (past : now ≤ server.clock) (prompt : server.clock < checked + Duration.fromSecs 59) :
    (server.consume challenge now).1 = false := by
  rw [← Bool.not_eq_true, consume_eq_true]
  intro expired
  rcases backed.signed with ⟨one, one_mem, challenges, -, -, current⟩
  rcases marked with ⟨other, other_mem, same, late⟩
  rcases once.once one one_mem other other_mem (challenges.trans same.symm) with rfl
  have overdue : one.signedAt + consumedChallengeTtl ≤ server.clock := by
    rcases late with overdue | ⟨expiry, found, late⟩
    · exact overdue
    · exact late.trans ((expired expiry found).trans past)
  exact absurd prompt (Nat.not_lt_of_le (outlives _ _ _ current overdue))

end single

/-- No challenge has been accepted twice, and each one that was has its marker. -/
structure AcceptedOnce (pool : ChallengePool) : Prop where
  all : AllShown pool
  marked : ∀ (index : ℕ) (attempt : Attempt) (challenge : Text),
    pool.processes[index]? = some (.accepted attempt challenge) → Marked pool.shared challenge
  once : ∀ (first second : ℕ) (attempt other : Attempt) (challenge : Text),
    pool.processes[first]? = some (.accepted attempt challenge) →
      pool.processes[second]? = some (.accepted other challenge) → first = second

section once

variable {Mac : Type} [DecidableEq Mac] {crypto : ChallengeCrypto Mac}
  {pool after final : ChallengePool} {event : ChallengeEvent} {steps : List ChallengeStep}
  {clock : Instant}

/-- A step that makes a call accept is a consume. -/
theorem accepted_by_consume {server : ChallengeServer} {call : ChallengeCall} {nonce : Nonce}
    {advance : Advance ChallengeServer ChallengeCall} {attempt : Attempt} {challenge : Text}
    (taken : call.step crypto server nonce = some advance)
    (accepts : advance.process = .accepted attempt challenge) :
    ∃ checked now, call = .consume attempt challenge checked now ∧
      (server.consume challenge now).1 = true ∧
        advance.shared = (server.consume challenge now).2 := by
  cases call with
  | consume attempt' challenge' checked now =>
      simp only [ChallengeCall.step] at taken
      split at taken
      next consumed =>
        rcases Option.some.inj taken with rfl
        rcases ChallengeCall.accepted.inj accepts with ⟨rfl, rfl⟩
        exact ⟨checked, now, rfl, by rw [consumed], by rw [consumed]⟩
      next =>
        rcases Option.some.inj taken with rfl
        cases accepts
  | checkToken attempt =>
      simp only [ChallengeCall.step] at taken
      split at taken <;> rcases Option.some.inj taken with rfl
      · cases accepts
      · simp only [ChallengeCall.afterToken] at accepts
        repeat' split at accepts
        all_goals cases accepts
  | checkFreshness attempt challenge checked =>
      simp only [ChallengeCall.step] at taken
      split at taken <;> rcases Option.some.inj taken with rfl <;> cases accepts
  | sign purpose subject =>
      simp only [ChallengeCall.step] at taken
      split at taken
      · cases taken
      · rcases Option.some.inj taken with rfl
        cases accepts
  | readClock attempt challenge checked =>
      rcases Option.some.inj taken with rfl
      cases accepts
  | signed | accepted | refused => cases taken

/-- A call that accepts leaves a marker. -/
theorem marked_of_accepted {server : ChallengeServer} {call : ChallengeCall} {nonce : Nonce}
    {advance : Advance ChallengeServer ChallengeCall} {attempt : Attempt} {challenge : Text}
    (shown : Shown server call) (taken : call.step crypto server nonce = some advance)
    (accepts : advance.process = .accepted attempt challenge) :
    Marked advance.shared challenge := by
  rcases accepted_by_consume taken accepts with ⟨checked, now, rfl, consumes, same⟩
  rcases shown with ⟨backed, -, since, -⟩
  rcases backed.signed with ⟨one, one_mem, challenges, -, signedAt, -⟩
  rcases @later_consume server challenge now with ⟨-, signed⟩
  rw [same]
  refine ⟨one, signed ▸ one_mem, challenges, .inr ⟨now + consumedChallengeTtl, ?_, ?_⟩⟩
  · rw [lookup_consume, if_pos ⟨rfl, consumes⟩]
  · exact Nat.add_le_add_right (signedAt.trans since) _

/-- A turn keeps the markers. -/
theorem marked_turn {server : ChallengeServer} {call : ChallengeCall} {nonce : Nonce}
    {advance : Advance ChallengeServer ChallengeCall} {challenge : Text}
    (once : SignedOnce server) (shown : Shown server call)
    (taken : call.step crypto server nonce = some advance) (marked : Marked server challenge) :
    Marked advance.shared challenge := by
  rcases effect_of_step taken with ⟨effect, -⟩
  have later := later_of_effect effect
  cases effect with
  | signs purpose subject _ _ same => exact marked.mono later (by rw [same])
  | keeps same => exact marked.mono later (by rw [same])
  | consumes attempt other checked now consuming same =>
      rcases consuming with rfl
      rcases shown with ⟨backed, -, since, past⟩
      rw [same]
      apply marked.consume past
      rintro one one_mem challenges rfl
      rcases backed.signed with ⟨own, own_mem, own_challenge, -, signedAt, -⟩
      rcases once.once one one_mem own own_mem (challenges.trans own_challenge.symm) with rfl
      exact signedAt.trans since

theorem AcceptedOnce.next (accepted : AcceptedOnce pool)
    (taken : (challengeTasks crypto).machine.next pool event = some after)
    (unforged : NothingForged crypto ⟨pool, event, after⟩) (prompt : Prompt ⟨pool, event, after⟩) :
    AcceptedOnce after := by
  have all := accepted.all.next taken unforged
  have later := later_of_next taken
  rcases Tasks.effect_of_next taken with
    request | @⟨index, call, nonce, advance, found, moved⟩ | elapsed
  · have before : ∀ {index : ℕ} {attempt : Attempt} {challenge : Text},
        (pool.processes ++ [request.call])[index]? = some (.accepted attempt challenge) →
          pool.processes[index]? = some (.accepted attempt challenge) := by
      intro index attempt challenge found
      rcases Nat.lt_or_ge index pool.processes.length with inside | new
      · rwa [List.getElem?_append_left inside] at found
      · rw [List.getElem?_append_right new] at found
        have same := List.mem_singleton.mp (List.mem_of_getElem? found)
        cases request <;> cases same
    exact ⟨all, fun index attempt challenge found => accepted.marked _ _ _ (before found),
      fun first second attempt other challenge found found' =>
        accepted.once _ _ _ _ _ (before found) (before found')⟩
  · rcases effect_of_step moved with ⟨-, alone⟩
    have shown := accepted.all.shown call (List.mem_of_getElem? found)
    have places : ∀ {place : ℕ} {other : ChallengeCall},
        (pool.processes.set index advance.process ++ advance.spawned)[place]? = some other →
          place = index ∧ other = advance.process ∨
            place ≠ index ∧ pool.processes[place]? = some other := by
      intro place other at_place
      rcases Pool.of_set_append at_place with same | differs | ⟨-, is_new⟩
      · exact .inl same
      · exact .inr differs
      · rw [alone] at is_new
        cases is_new
    have again : ∀ {place : ℕ} {attempt other : Attempt} {challenge : Text},
        advance.process = .accepted attempt challenge →
          ¬pool.processes[place]? = some (.accepted other challenge) := by
      intro place attempt other challenge accepts already
      rcases accepted_by_consume moved accepts with ⟨checked, now, rfl, consumes, -⟩
      have in_time := prompt checked (by simp [moving, found, ChallengeCall.lastChecked])
      have marked := accepted.marked place other challenge already
      have used := not_consumed_again accepted.all.once marked shown.1 shown.2.2.2 in_time
      cases used.symm.trans consumes
    refine ⟨all, fun place attempt challenge at_place => ?_,
      fun first second attempt other challenge at_first at_second => ?_⟩
    · rcases places at_place with ⟨-, same⟩ | ⟨-, before⟩
      · exact marked_of_accepted shown moved same.symm
      · exact marked_turn accepted.all.once shown moved (accepted.marked _ _ _ before)
    · rcases places at_first with ⟨rfl, same⟩ | ⟨-, before⟩
      · rcases places at_second with ⟨rfl, -⟩ | ⟨-, already⟩
        · rfl
        · exact absurd already (again same.symm)
      · rcases places at_second with ⟨rfl, same⟩ | ⟨-, before'⟩
        · exact absurd before (again same.symm)
        · exact accepted.once _ _ _ _ _ before before'
  · exact ⟨all, fun index attempt challenge found => (accepted.marked _ _ _ found).mono later rfl,
      accepted.once⟩

/-- No challenge is accepted twice: however the calls come in between, a token or an event that is
sent again is refused for good, when no call takes 59 seconds from its token to the lock. -/
theorem challenges_are_accepted_once
    (run : (challengeTasks crypto).machine.Run ⟨.start clock, []⟩ steps final)
    (unforged : ∀ step ∈ steps, NothingForged crypto step) (prompt : ∀ step ∈ steps, Prompt step)
    {first second : ℕ} {attempt other : Attempt} {challenge : Text}
    (accepted : final.processes[first]? = some (.accepted attempt challenge))
    (accepted' : final.processes[second]? = some (.accepted other challenge)) : first = second := by
  have start : AcceptedOnce ⟨.start clock, []⟩ := ⟨allShown_start, by simp, by simp⟩
  have once : AcceptedOnce final := by
    apply run.invariant_of_forall AcceptedOnce start
      (fun step step_mem => And.intro (unforged step step_mem) (prompt step step_mem))
    exact fun taken meets accepted => accepted.next taken meets.1 meets.2
  exact once.once first second attempt other challenge accepted accepted'

end once

/-! ## A login and its replay -/

/-- The bytes of `signedLogin`. -/
def nonce : Nonce := ⟨"c0ffee".toList, by decide⟩

def login : Attempt where
  subject := .login
  token := signedLogin.token plainCrypto
  event := ⟨22242, signedLogin.challenge, 3, true, []⟩

/-- The login is sent twice, and the two calls make their steps in turn. -/
def loginTwice : List ChallengeEvent :=
  [.arrive (.challenge .login .login), .turn 0 nonce, .outside 2000000000,
    .arrive (.verify login), .arrive (.verify login)] ++
  (List.replicate 4 [1, 2]).flatten.map (.turn · nonce)

def beforeLogins : ChallengePool := ⟨.start 1000000000, []⟩

def loginSteps : List ChallengeStep :=
  (challengeTasks plainCrypto).machine.stepsOf beforeLogins loginTwice

def afterLogins : ChallengePool :=
  ((challengeTasks plainCrypto).machine.exec beforeLogins loginTwice).getD beforeLogins

theorem run_logins : (challengeTasks plainCrypto).machine.Run beforeLogins loginSteps afterLogins :=
  .of_exec rfl

theorem unforged_logins : ∀ step ∈ loginSteps, NothingForged plainCrypto step := by
  have checked : ∀ step ∈ loginSteps, ∀ token ∈ (moving step).bind ChallengeCall.presented,
      token = login.token ∧ signedLogin.data ∈ step.before.shared.signed.map (·.data) := by
    decide
  intro step step_mem token token_mem
  rcases checked step step_mem token token_mem with ⟨rfl, signed⟩
  exact unforged_login signed

/-- The second login is refused. -/
theorem a_replayed_login_is_refused :
    afterLogins.processes[2]? = some (.refused login .used) ∧ ∀ place attempt,
      afterLogins.processes[place]? = some (.accepted attempt signedLogin.challenge) → place = 1 :=
  ⟨rfl, fun _ _ accepted =>
    challenges_are_accepted_once run_logins unforged_logins (by decide) accepted
      (by rfl : afterLogins.processes[1]? = some (.accepted login _))⟩

theorem the_login_is_as_signed : ∃ one ∈ afterLogins.shared.signed,
    one.challenge = signedLogin.challenge ∧ one.subject.text = Subject.login.text := by
  have accepted : afterLogins.processes[1]? = some (.accepted login signedLogin.challenge) := rfl
  rcases accepted_as_signed run_logins unforged_logins (List.mem_of_getElem? accepted) with
    ⟨one, one_mem, -, -, challenges, subjects, -⟩
  exact ⟨one, one_mem, challenges, subjects⟩

/-- A call that is held up for a minute between its token and the lock is accepted again. -/
example : ((challengeTasks plainCrypto).machine.exec afterLogins
    ([.outside 298900000000, .arrive (.verify login), .turn 3 nonce, .turn 3 nonce,
      .outside 62000000000, .turn 3 nonce, .turn 3 nonce])).bind (fun pool => pool.processes[3]?) =
    some (.accepted login signedLogin.challenge) := rfl

end ScuffedCrew.Challenges
