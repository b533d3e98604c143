import ScuffedCrew.RelayPolicy.GiftBudget
import ScuffedCrew.RelayPolicy.ReadPolicy

/-!
# A session of the gate

What the gate does with one text frame of a client or of the relay.
-/

namespace ScuffedCrew.RelayPolicy

open Rust

def authRequired : Text := "auth-required: NIP-42 AUTH required before REQ".toList

def publishAuthRequired : Text := "auth-required: NIP-42 AUTH required before publishing".toList

def countDisabled : Text := "restricted: COUNT is disabled".toList

def negDisabled : Text := "restricted: negentropy sync is disabled".toList

def rateLimited : Text := "rate-limited: too many events".toList

structure ClientOutcome where
  toClient : List Text
  toRelay : List Text

namespace ClientOutcome

def nothing : ClientOutcome := ⟨[], []⟩

def reply (text : Text) : ClientOutcome := ⟨[text], []⟩

def forward (text : Text) : ClientOutcome := ⟨[], [text]⟩

end ClientOutcome

inductive Verb
  | req
  | count
  | neg
  | event
  | close
  | auth
  | other
  deriving DecidableEq

def Verb.of (kind : Text) : Verb :=
  if kind = "REQ".toList then req
  else if kind = "COUNT".toList then count
  else if "NEG".toList.isPrefixOf kind then neg
  else if kind = "EVENT".toList then event
  else if kind = "CLOSE".toList then close
  else if kind = "AUTH".toList then auth
  else other

structure GateSession where
  challenge : Text
  authedPubkey : Option Text

def GateSession.new (challenge : Text) : GateSession := ⟨challenge, none⟩

/-- The answers of the gate, as `json!` builds them. -/
inductive Reply
  | closed (subId reason : Text)
  | ok (eventId : Text) (accepted : Bool) (message : Text)
  | notice (message : Text)

def Reply.json {φ : Type} : Reply → Json φ
  | closed subId reason => .array [.string "CLOSED".toList, .string subId, .string reason]
  | ok eventId accepted message =>
      .array [.string "OK".toList, .string eventId, .bool accepted, .string message]
  | notice message => .array [.string "NOTICE".toList, .string message]

section

variable {φ : Type}

/-- The verb of a frame. -/
def frameKind (value : Json φ) : Option Text := (value.item 0).bind Json.asStr

def publishedKind (value : Json φ) : Option ℕ :=
  ((value.item 1).bind (·.get "kind".toList)).bind Json.asU64

def publishedId (value : Json φ) : Text :=
  (((value.item 1).bind (·.get "id".toList)).bind Json.asStr).getD []

/-- The JSON of texts, and `verify_auth`: the key an event authenticates for a challenge. -/
structure Outside (φ : Type) where
  codec : JsonCodec φ
  verifyAuth : Json φ → Text → Except Text Text

variable (outside : Outside φ)

def Outside.reply (reply : Reply) : Text := outside.codec.toText reply.json

def Outside.verb (text : Text) : Option Text := (outside.codec.fromStr text).bind frameKind

namespace GateSession

variable (session : GateSession)

def gateReq (text subId : Text) : ClientOutcome :=
  if session.authedPubkey.isNone then .reply (outside.reply (.closed subId authRequired))
  else .forward text

def gateEvent (text : Text) (value : Json φ) (directory : ReadDirectory) (gifts : GiftBudget)
    (now : Instant) : ClientOutcome × GiftBudget :=
  let eventId := publishedId value
  match session.authedPubkey with
  | none => (.reply (outside.reply (.ok eventId false publishAuthRequired)), gifts)
  | some authed =>
      if (directory.reader authed).isNone then
        (.reply (outside.reply (.ok eventId false publishAuthRequired)), gifts)
      else if publishedKind value = some plainDmKind then
        (.reply (outside.reply
          (.ok eventId false "blocked: kind 4 plain DMs are not accepted".toList)), gifts)
      else if publishedKind value = some giftWrapKind then
        match gifts.allow now authed value with
        | (true, gifts) => (.forward text, gifts)
        | (false, gifts) => (.reply (outside.reply (.ok eventId false rateLimited)), gifts)
      else (.forward text, gifts)

def onAuth (value : Json φ) : ClientOutcome × GateSession :=
  let eventId := publishedId value
  match value.item 1 with
  | none =>
      (.reply (outside.reply (.ok eventId false "auth-required: missing AUTH event".toList)),
        session)
  | some event =>
      match outside.verifyAuth event session.challenge with
      | .ok pubkey =>
          (.reply (outside.reply (.ok eventId true [])),
            { session with authedPubkey := some (normalised pubkey) })
      | .error reason =>
          (.reply (outside.reply (.ok eventId false ("auth-required: ".toList ++ reason))),
            session)

def onClientText (text : Text) (directory : ReadDirectory) (gifts : GiftBudget) (now : Instant) :
    ClientOutcome × GateSession × GiftBudget :=
  match outside.codec.fromStr text with
  | none => (.nothing, session, gifts)
  | some value =>
      match frameKind value with
      | none => (.nothing, session, gifts)
      | some kind =>
          let subId := ((value.item 1).bind Json.asStr).getD []
          match Verb.of kind with
          | .req => (session.gateReq outside text subId, session, gifts)
          | .count => (.reply (outside.reply (.closed subId countDisabled)), session, gifts)
          | .neg => (.reply (outside.reply (.closed subId negDisabled)), session, gifts)
          | .event =>
              let (outcome, gifts) := session.gateEvent outside text value directory gifts now
              (outcome, session, gifts)
          | .close => (.forward text, session, gifts)
          | .auth =>
              let (outcome, session) := session.onAuth outside value
              (outcome, session, gifts)
          | .other => (.nothing, session, gifts)

def onRelayText (text : Text) (directory : ReadDirectory) : Option Text := do
  let value ← outside.codec.fromStr text
  let kind ← frameKind value
  if kind = "AUTH".toList then none
  else if kind = "EVENT".toList then
    let event ← (value.item 2).bind EventView.fromJson
    match allowEvent session.authedPubkey event directory with
    | .ok () => some text
    | .error _ => none
  else some text

end GateSession

/-! ## What a text of the client does -/

theorem Verb.of_eq_auth_iff {kind : Text} : Verb.of kind = .auth ↔ kind = "AUTH".toList := by
  constructor
  · intro found
    by_contra other
    rw [Verb.of] at found
    split_ifs at found
  · rintro rfl
    rfl

def GateSession.authenticates (session : GateSession) (text : Text) : Option Text := do
  let value ← outside.codec.fromStr text
  let kind ← frameKind value
  if kind = "AUTH".toList then
    let event ← value.item 1
    (outside.verifyAuth event session.challenge).toOption.map normalised
  else none

variable {session : GateSession} {text : Text} {directory : ReadDirectory} {gifts : GiftBudget}
  {now : Instant}

theorem authedPubkey_onClientText :
    (session.onClientText outside text directory gifts now).2.1.authedPubkey =
      (session.authenticates outside text).or session.authedPubkey := by
  rw [GateSession.onClientText, GateSession.authenticates]
  cases outside.codec.fromStr text with
  | none => rfl
  | some value =>
      simp only [Option.bind_eq_bind, Option.bind_some]
      cases frameKind value with
      | none => rfl
      | some kind =>
          simp only [Option.bind_some]
          by_cases auth : kind = "AUTH".toList
          · rw [if_pos auth, Verb.of_eq_auth_iff.mpr auth]
            simp only [GateSession.onAuth]
            cases value.item 1 with
            | none => rfl
            | some event =>
                simp only [Option.bind_some]
                cases outside.verifyAuth event session.challenge with
                | ok pubkey => rfl
                | error reason => rfl
          · rw [if_neg auth]
            have other : Verb.of kind ≠ .auth := fun found => auth (Verb.of_eq_auth_iff.mp found)
            cases verb : Verb.of kind with
            | auth => exact absurd verb other
            | _ => rfl

/-- An outcome that sends the client replies of the gate only. -/
def ClientOutcome.Replies (outcome : ClientOutcome) : Prop :=
  ∀ text ∈ outcome.toClient, ∃ reply, text = outside.reply reply

theorem replies_nothing : ClientOutcome.nothing.Replies outside := by
  intro sent mem
  cases mem

theorem replies_forward : (ClientOutcome.forward text).Replies outside := by
  intro sent mem
  cases mem

theorem replies_reply (reply : Reply) :
    (ClientOutcome.reply (outside.reply reply)).Replies outside := by
  intro sent mem
  exact ⟨reply, List.mem_singleton.mp mem⟩

theorem replies_gateReq {subId : Text} : (session.gateReq outside text subId).Replies outside := by
  rw [GateSession.gateReq]
  split
  · exact replies_reply outside _
  · exact replies_forward outside

theorem replies_gateEvent {value : Json φ} :
    (session.gateEvent outside text value directory gifts now).1.Replies outside := by
  simp only [GateSession.gateEvent]
  cases session.authedPubkey with
  | none => exact replies_reply outside _
  | some authed =>
      simp only
      split
      next => exact replies_reply outside _
      split
      next => exact replies_reply outside _
      split
      next =>
        split
        next => exact replies_forward outside
        next => exact replies_reply outside _
      next => exact replies_forward outside

theorem replies_onAuth {value : Json φ} : (session.onAuth outside value).1.Replies outside := by
  simp only [GateSession.onAuth]
  cases value.item 1 with
  | none => exact replies_reply outside _
  | some event =>
      simp only
      cases outside.verifyAuth event session.challenge with
      | ok pubkey => exact replies_reply outside _
      | error reason => exact replies_reply outside _

theorem replies_onClientText :
    (session.onClientText outside text directory gifts now).1.Replies outside := by
  rw [GateSession.onClientText]
  cases outside.codec.fromStr text with
  | none => exact replies_nothing outside
  | some value =>
      simp only
      cases frameKind value with
      | none => exact replies_nothing outside
      | some kind =>
          simp only
          cases Verb.of kind with
          | req => exact replies_gateReq outside
          | count => exact replies_reply outside _
          | neg => exact replies_reply outside _
          | event => exact replies_gateEvent outside
          | close => exact replies_forward outside
          | auth => exact replies_onAuth outside
          | other => exact replies_nothing outside

end

end ScuffedCrew.RelayPolicy
