import Mathlib.Data.Finset.Image
import ScuffedCrew.RelayPolicy.Loading
import ScuffedCrew.Rust.Numeric

/-!
# The write policy

Which events the relay stores.  A group write is checked against the group of
the first `h` tag, as it is written; an event without one is not checked.
-/

namespace ScuffedCrew.RelayPolicy

open Rust

inductive Decision
  | accept
  | reject (reason : Text)
  deriving DecidableEq

structure PolicyConfig where
  rateLimitEvents : ℕ
  rateLimitWindowSecs : ℕ
  allowedKinds : ℕ → Bool
  enforceGroupMembership : Bool

/-- `PolicyConfig::default()`. -/
def PolicyConfig.default : PolicyConfig where
  rateLimitEvents := 30
  rateLimitWindowSecs := 60
  allowedKinds kind :=
    [0, 1, 7, 9, 10, 11, 12, 22242, 13, 14, 1059, 34550, 1111, 5, 9000, 9001, 9002, 9003, 9004,
      9005, 9006, 9007, 9008, 9021, 9022].contains kind ||
      (39000 ≤ kind && kind ≤ 39009) || (20000 ≤ kind && kind ≤ 29999)
  enforceGroupMembership := true

structure RateBucket where
  timestamps : List Instant

def RateBucket.new : RateBucket := ⟨[]⟩

def RateBucket.record (bucket : RateBucket) (now : Instant) (windowSecs : ℕ) :
    ℕ × RateBucket :=
  let timestamps :=
    bucket.timestamps.filter (fun stamp => now < stamp + Duration.fromSecs windowSecs) ++ [now]
  (timestamps.length, ⟨timestamps⟩)

structure EventInfo where
  pubkey : Text
  kind : ℕ
  tags : List (List Text)
  authed : Option Text

/-- The second part of a tag with a name. -/
def tagValue (name : Text) (tag : List Text) : Option Text :=
  if tag.head? = some name then tag[1]? else none

namespace EventInfo

variable (event : EventInfo)

def groupId : Option Text := event.tags.findSome? (tagValue "h".toList)

/-- What the gate reads of the stored event. -/
def view : EventView := ⟨normalised event.pubkey, event.kind, event.tags⟩

end EventInfo

/-- The authenticated key, or else the author's. -/
def giftSender (event : EventInfo) : Text :=
  ((event.authed.map normalised).filter isPubkey).getD event.pubkey.toAsciiLowercase

structure PolicyEngine where
  config : PolicyConfig
  pubkeyAllowlist : Finset Text
  groupMembers : HashMap Text (Finset Text)
  rateBuckets : HashMap Text RateBucket

/-- `load_pubkey_allowlist`. -/
def loadPubkeyAllowlist (rows : Rows) : Finset Text :=
  (((rows.listNostrIdentities.filterMap MemberRow.nostrPubkey).filter isPubkey).map
    Text.toAsciiLowercase).toFinset

namespace PolicyEngine

def new (config : PolicyConfig) : PolicyEngine := ⟨config, ∅, ∅, ∅⟩

variable (engine : PolicyEngine) (now : Instant) (event : EventInfo)

def updateAllowlist (pubkeys : Finset Text) : PolicyEngine :=
  { engine with pubkeyAllowlist := pubkeys }

def updateGroupMembers (groups : HashMap Text (Finset Text)) : PolicyEngine :=
  { engine with groupMembers := groups }

def allowlistedRecipient : Option Text :=
  event.tags.findSome? fun tag =>
    ((tagValue "p".toList tag).map Text.toAsciiLowercase).filter
      fun pubkey => decide (pubkey ∈ engine.pubkeyAllowlist)

def kindNotAllowed : Text :=
  "blocked: event kind ".toList ++ (toString event.kind).toList ++ " not allowed".toList

/-- The rate bucket of an event, if its author or recipient may write. -/
def rateKey : Except Text Text :=
  if event.kind = giftWrapKind then
    if !engine.config.allowedKinds event.kind then .error (kindNotAllowed event)
    else
      match engine.allowlistedRecipient event with
      | some pubkey => .ok ("gift:".toList ++ giftSender event ++ ':' :: pubkey)
      | none => .error "blocked: gift wrap recipient not in member allowlist".toList
  else if event.pubkey ∉ engine.pubkeyAllowlist then
    .error "blocked: pubkey not in member allowlist".toList
  else if !engine.config.allowedKinds event.kind then .error (kindNotAllowed event)
  else .ok event.pubkey

/-- The roster check of an `h` tag. -/
def checkGroup : Except Text Unit :=
  if engine.config.enforceGroupMembership then
    match event.groupId with
    | none => .ok ()
    | some groupId =>
        match engine.groupMembers.lookup groupId with
        | some members =>
            if event.pubkey ∈ members then .ok ()
            else .error ("blocked: not a member of group '".toList ++ groupId ++ ['\''])
        | none => .error ("blocked: unknown group '".toList ++ groupId ++ ['\''])
  else .ok ()

/-- An event that is refused before its rate bucket consumes nothing. -/
def evaluate : Decision × PolicyEngine :=
  if event.kind = plainDmKind then
    (.reject "blocked: kind 4 plain DMs are not accepted".toList, engine)
  else
    match engine.rateKey event, engine.checkGroup event with
    | .error reason, _ => (.reject reason, engine)
    | .ok _, .error reason => (.reject reason, engine)
    | .ok key, .ok () =>
        let bucket := (engine.rateBuckets.lookup key).getD RateBucket.new
        let (count, bucket) := bucket.record now engine.config.rateLimitWindowSecs
        let engine := { engine with rateBuckets := engine.rateBuckets.insert key bucket }
        if count > engine.config.rateLimitEvents then
          (.reject "rate-limited: too many events".toList, engine)
        else (.accept, engine)

end PolicyEngine

variable {engine : PolicyEngine} {now : Instant} {event : EventInfo}

/-- What is accepted passed the checks, and its bucket was not full. -/
theorem checks_of_evaluate_accept (accepted : (engine.evaluate now event).1 = .accept) :
    event.kind ≠ plainDmKind ∧ (∃ key, engine.rateKey event = .ok key) ∧
      engine.checkGroup event = .ok () := by
  rw [PolicyEngine.evaluate] at accepted
  split at accepted
  next => simp at accepted
  next kind =>
    split at accepted
    next => simp at accepted
    next => simp at accepted
    next key found group => exact ⟨kind, ⟨key, found⟩, group⟩

/-- The check of a group lets its writers through. -/
theorem checkGroup_eq_ok_iff (enforced : engine.config.enforceGroupMembership = true) :
    engine.checkGroup event = .ok () ↔ ∀ id, event.groupId = some id →
      ∃ members, engine.groupMembers.lookup id = some members ∧ event.pubkey ∈ members := by
  rw [PolicyEngine.checkGroup, if_pos enforced]
  cases event.groupId with
  | none => simp
  | some id =>
      simp only [Option.some.injEq, forall_eq']
      cases engine.groupMembers.lookup id with
      | none => simp only [reduceCtorEq, false_and, exists_false]
      | some members =>
          simp only [Option.some.injEq, exists_eq_left']
          split
          next inside => simp only [inside]
          next outside => simp only [outside, reduceCtorEq]

/-- The policy changes nothing but the rate buckets. -/
theorem evaluate_engine : (engine.evaluate now event).2 =
    { engine with rateBuckets := (engine.evaluate now event).2.rateBuckets } := by
  rw [PolicyEngine.evaluate]
  split
  next => rfl
  next =>
    split
    next => rfl
    next => rfl
    next =>
      dsimp only
      split <;> rfl

end ScuffedCrew.RelayPolicy
