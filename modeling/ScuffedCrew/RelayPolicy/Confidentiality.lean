import ScuffedCrew.RelayPolicy.Gate
import ScuffedCrew.Rust.JsonText
import ScuffedCrew.StateMachine.Run

/-!
# Confidentiality of the gate

An event reaches the client only while the key of its last AUTH is an active
member that may read it.  Events that must not be delivered leave no trace in
what the client sees.
-/

namespace ScuffedCrew.RelayPolicy

open Rust StateMachine

variable {φ : Type} (outside : Outside φ)

/-! ## Events -/

section

variable {session : GateSession} {text : Text} {directory : ReadDirectory} {gate : Gate}

def eventVerb : Text := "EVENT".toList

/-- A frame that is an event for its reader. -/
def IsEvent (message : Message) : Prop :=
  ∃ text, message = .text text ∧ outside.verb text = some eventVerb

def eventOf (text : Text) : Option EventView :=
  ((outside.codec.fromStr text).bind (·.item 2)).bind EventView.fromJson

/-- The session's key is an active member that may read the event in the frame. -/
def MayReceive (gate : Gate) (text : Text) : Prop :=
  ∃ pubkey member view, gate.session.authedPubkey = some pubkey ∧
    gate.directory.reader pubkey = some member ∧ eventOf outside text = some view ∧
    MayRead gate.directory member view

theorem onRelayText_eq (isEvent : outside.verb text = some eventVerb) :
    session.onRelayText outside text directory =
      (eventOf outside text).bind fun view =>
        match allowEvent session.authedPubkey view directory with
        | .ok () => some text
        | .error _ => none := by
  rw [Outside.verb, Option.bind_eq_some_iff] at isEvent
  rcases isEvent with ⟨value, parsed, kind⟩
  have other : eventVerb ≠ "AUTH".toList := by decide
  simp only [GateSession.onRelayText, eventOf, parsed, kind, Option.bind_eq_bind, Option.bind_some,
    if_neg other]
  exact if_pos (show eventVerb = "EVENT".toList from rfl)

theorem eq_of_onRelayText {sent : Text}
    (found : session.onRelayText outside text directory = some sent) : sent = text := by
  simp only [GateSession.onRelayText, Option.bind_eq_bind, Option.bind_eq_some_iff] at found
  rcases found with ⟨value, -, kind, -, found⟩
  split at found
  next => cases found
  split at found
  next =>
    rcases Option.bind_eq_some_iff.mp found with ⟨view, -, found⟩
    split at found
    next => exact Eq.symm (Option.some.inj found)
    next => cases found
  next => exact Eq.symm (Option.some.inj found)

theorem onRelayText_eq_some_iff (isEvent : outside.verb text = some eventVerb) :
    gate.session.onRelayText outside text gate.directory = some text ↔
      MayReceive outside gate text := by
  rw [onRelayText_eq outside isEvent, Option.bind_eq_some_iff]
  constructor
  · rintro ⟨view, viewed, allowed⟩
    split at allowed
    next granted =>
      rcases allowEvent_eq_ok_iff.mp granted with ⟨pubkey, member, authed, reader, mayRead⟩
      exact ⟨pubkey, member, view, authed, reader, viewed, mayRead⟩
    next => cases allowed
  · rintro ⟨pubkey, member, view, authed, reader, viewed, mayRead⟩
    have granted := allowEvent_eq_ok_iff.mpr ⟨pubkey, member, authed, reader, mayRead⟩
    exact ⟨view, viewed, by rw [granted]⟩

end

/-! ## Runs -/

def AuthenticatedAs (pubkey : Text) (steps : List (Step Gate Event)) : Prop :=
  Since (fun step => step.before.authenticates outside step.event = some pubkey)
    (fun step => step.before.authenticates outside step.event = none) steps

def MustNotDeliver (gate : Gate) (event : Event) : Prop :=
  ∃ text, event = .relay (.text text) ∧ outside.verb text = some eventVerb ∧
    ¬MayReceive outside gate text

section

variable {gate : Gate} {event : Event} {start final : Gate} {steps : List (Step Gate Event)}

theorem normalised_of_authenticates {pubkey : Text}
    (found : gate.authenticates outside event = some pubkey) : normalised pubkey = pubkey := by
  rw [Gate.authenticates.eq_def] at found
  split at found
  next text allowed now =>
    split at found
    next =>
      simp only [GateSession.authenticates, Option.bind_eq_bind, Option.bind_eq_some_iff] at found
      rcases found with ⟨value, -, kind, -, found⟩
      split at found
      next =>
        rcases Option.bind_eq_some_iff.mp found with ⟨event, -, found⟩
        rcases Option.map_eq_some_iff.mp found with ⟨raw, -, rfl⟩
        exact normalised_normalised raw
      next => cases found
    next => cases found
  next => cases found

theorem authenticatedAs_of_run (run : (pump outside).Run start steps final)
    (fresh : start.session.authedPubkey = none) :
    ∀ pubkey, final.session.authedPubkey = some pubkey → AuthenticatedAs outside pubkey steps := by
  apply run.history
    (fun steps gate => ∀ pubkey, gate.session.authedPubkey = some pubkey →
      AuthenticatedAs outside pubkey steps)
  · intro pubkey authed
    rw [fresh] at authed
    cases authed
  · intro steps state event after taken known pubkey authed
    rcases Option.some.inj taken with rfl
    rw [authedPubkey_handle] at authed
    rw [AuthenticatedAs, Since.snoc_iff]
    cases found : state.authenticates outside event with
    | some key =>
        rw [found, Option.some_or] at authed
        exact .inl authed
    | none =>
        rw [found, Option.none_or] at authed
        exact .inr ⟨rfl, known pubkey authed⟩

theorem verb_reply (roundTrips : ∀ reply : Reply, outside.codec.RoundTrips reply.json)
    (reply : Reply) : outside.verb (outside.reply reply) ≠ some eventVerb := by
  rw [Outside.verb, Outside.reply, roundTrips reply, Option.bind_some]
  cases reply <;> simp [Reply.json, frameKind, Json.item, Json.asArray, Json.asStr, eventVerb]

theorem mayReceive_of_delivered
    (roundTrips : ∀ reply : Reply, outside.codec.RoundTrips reply.json) {text : Text}
    (mem : .text text ∈ gate.delivered outside event)
    (isEvent : outside.verb text = some eventVerb) : MayReceive outside gate text := by
  have step := handles_handle outside gate event
  rw [Gate.delivered] at mem
  generalize gate.handle outside event = result at step mem
  cases step with
  | clientText isOpen sent now =>
      rcases List.mem_map.mp mem with ⟨other, other_mem, same⟩
      rcases Message.text.inj same with rfl
      rcases replies_onClientText outside _ other_mem with ⟨reply, rfl⟩
      exact absurd isEvent (verb_reply outside roundTrips reply)
  | relayText isOpen sent =>
      simp only [Gate.forwardRelay, Option.mem_toList] at mem
      rcases Option.map_eq_some_iff.mp mem with ⟨other, found, same⟩
      rcases Message.text.inj same with rfl
      rcases eq_of_onRelayText outside found with rfl
      exact (onRelayText_eq_some_iff outside isEvent).mp found
  | quiet event sent after unauthenticated session toClient toRelay =>
      rcases toClient text mem with ⟨reply, rfl⟩
      exact absurd isEvent (verb_reply outside roundTrips reply)

theorem silent_of_mustNotDeliver (hidden : MustNotDeliver outside gate event) :
    (pump outside).next gate event = some gate ∧ gate.delivered outside event = [] := by
  rcases hidden with ⟨text, rfl, isEvent, forbidden⟩
  have silent : gate.handle outside (.relay (.text text)) = (.nothing, gate) := by
    cases isOpen : gate.isOpen with
    | false =>
        rw [Gate.handle, isOpen]
        rfl
    | true =>
        have dropped : gate.session.onRelayText outside text gate.directory = none := by
          rw [Option.eq_none_iff_forall_not_mem]
          intro sent found
          rcases eq_of_onRelayText outside found with rfl
          exact forbidden ((onRelayText_eq_some_iff outside isEvent).mp found)
        rw [Gate.handle, isOpen, Gate.forwardRelay, dropped]
        rfl
  constructor
  · change some (gate.handle outside (.relay (.text text))).2 = some gate
    rw [silent]
  · rw [Gate.delivered, silent]
    rfl

/-- Whatever arrives in whatever order, an event reaches the client only while the key of
its last AUTH is an active member that may read it, and other events leave no trace. -/
theorem reads_confined (roundTrips : ∀ reply : Reply, outside.codec.RoundTrips reply.json)
    (challenge : Text) (directory : ReadDirectory) (gifts : GiftBudget) :
    (∀ steps final, (pump outside).Run (.new challenge directory gifts) steps final →
      ∀ before step later, steps = before ++ step :: later →
        ∀ message ∈ step.before.delivered outside step.event, IsEvent outside message →
          ∃ text pubkey member view, message = .text text ∧
            AuthenticatedAs outside pubkey before ∧
            step.before.directory.reader pubkey = some member ∧ member.pubkey = pubkey ∧
            eventOf outside text = some view ∧ MayRead step.before.directory member view) ∧
    ∀ first second,
      (pump outside).SameBut (MustNotDeliver outside) (.new challenge directory gifts) first
        second →
        (pump outside).observe (Gate.delivered outside) (.new challenge directory gifts) first =
          (pump outside).observe (Gate.delivered outside) (.new challenge directory gifts)
            second := by
  constructor
  · rintro steps final run before step later rfl message mem ⟨text, rfl, isEvent⟩
    rcases mayReceive_of_delivered outside roundTrips mem isEvent with
      ⟨pubkey, member, view, authed, reader, viewed, mayRead⟩
    have known := authenticatedAs_of_run outside run.reaches_before.1 rfl pubkey authed
    have normal : normalised pubkey = pubkey := by
      rcases known with ⟨-, earlier, -, -, found, -⟩
      exact normalised_of_authenticates outside found
    refine ⟨text, pubkey, member, view, rfl, known, reader, ?_, viewed, mayRead⟩
    rw [ReadDirectory.pubkey_of_reader reader, normal]
  · intro first second same
    exact same.observe_eq fun _ _ hidden => silent_of_mustNotDeliver outside hidden

end

/-! ## A session -/

/-- The verifier of the proxy's tests: the event carries the challenge and names its key. -/
def pubkeyVerifier (event : Json Empty) (challenge : Text) : Except Text Text :=
  let tags := ((event.get "tags".toList).bind Json.asArray).getD []
  let tagged := tags.any fun tag =>
    decide ((tag.item 0).bind Json.asStr = some "challenge".toList) &&
      decide ((tag.item 1).bind Json.asStr = some challenge)
  if !tagged then .error "challenge mismatch".toList
  else
    match (event.get "pubkey".toList).bind Json.asStr with
    | some pubkey => .ok pubkey
    | none => .error "missing pubkey".toList

def testOutside : Outside Empty := ⟨Json.compact, pubkeyVerifier⟩

def pk (digit : Char) : Text := List.replicate 64 digit

def oneTag (name value : String) : Json Empty :=
  .array [.array [.string name.toList, .string value.toList]]

def authText (pubkey : Text) : Text :=
  Json.print (.array [.string "AUTH".toList,
    .object [("pubkey".toList, .string pubkey), ("tags".toList, oneTag "challenge" "chal")]])

def giftText (recipient : Text) : Text :=
  Json.print (.array [.string "EVENT".toList, .string "s".toList,
    .object [("pubkey".toList, .string "ee".toList), ("kind".toList, .number 1059),
      ("tags".toList, .array [.array [.string "p".toList, .string recipient]])]])

def teamDirectory : ReadDirectory :=
  .fromParts [⟨pk '1', "m".toList, false, {"team-a".toList}⟩]
    [("team-a".toList, ⟨"team-a".toList, false⟩)]

def teamGate : Gate := .new "chal".toList teamDirectory (.new 30 60)

def signIn : Event := .client (.text (authText (pk '1'))) true 0

def wrapFor (recipient : Text) : Event := .relay (.text (giftText recipient))

def signedIn : Gate := (teamGate.handle testOutside signIn).2

/-- A member receives her own wrap, and a wrap for somebody else leaves no trace. -/
theorem ownWrap_confined :
    (signedIn.delivered testOutside (wrapFor (pk '1')) = [.text (giftText (pk '1'))] ∧
      ∃ pubkey member view,
        AuthenticatedAs testOutside pubkey [⟨teamGate, signIn, signedIn⟩] ∧
        signedIn.directory.reader pubkey = some member ∧ member.pubkey = pubkey ∧
        eventOf testOutside (giftText (pk '1')) = some view ∧
        MayRead signedIn.directory member view) ∧
      (pump testOutside).observe (Gate.delivered testOutside) teamGate [signIn, wrapFor (pk '2')] =
        (pump testOutside).observe (Gate.delivered testOutside) teamGate [signIn] := by
  rcases reads_confined testOutside (fun reply => Json.compact_roundTrips _) "chal".toList
    teamDirectory (.new 30 60) with ⟨confined, unseen⟩
  constructor
  · have delivered : signedIn.delivered testOutside (wrapFor (pk '1')) =
        [.text (giftText (pk '1'))] := by decide +kernel
    have mem : .text (giftText (pk '1')) ∈ signedIn.delivered testOutside (wrapFor (pk '1')) := by
      rw [delivered]
      exact List.mem_singleton.mpr rfl
    have isEvent : testOutside.verb (giftText (pk '1')) = some eventVerb := by decide +kernel
    have run : (pump testOutside).Run teamGate [⟨teamGate, signIn, signedIn⟩,
        ⟨signedIn, wrapFor (pk '1'), _⟩] _ := (Machine.Run.single rfl).snoc rfl
    have inside := confined _ _ run [⟨teamGate, signIn, signedIn⟩] ⟨signedIn, _, _⟩ [] rfl
    dsimp only at inside
    rcases inside _ mem ⟨_, rfl, isEvent⟩ with
      ⟨text, pubkey, member, view, same, authed, reader, key, viewed, mayRead⟩
    rcases Message.text.inj same with rfl
    exact ⟨delivered, pubkey, member, view, authed, reader, key, viewed, mayRead⟩
  · apply unseen
    have isEvent : testOutside.verb (giftText (pk '2')) = some eventVerb := by decide +kernel
    refine .both fun after taken => .left ⟨_, rfl, isEvent, ?_⟩ .nil
    rcases Option.some.inj taken with rfl
    rw [← onRelayText_eq_some_iff testOutside isEvent]
    decide +kernel

end ScuffedCrew.RelayPolicy
