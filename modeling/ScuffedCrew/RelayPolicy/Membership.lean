import ScuffedCrew.RelayPolicy.Confidentiality

/-!
# Who the gate forwards for

A client's event is forwarded for an active member only, and a count never.  A
`REQ` is forwarded for every key that has passed AUTH, member or not.
-/

namespace ScuffedCrew.RelayPolicy

open Rust StateMachine

variable {φ : Type} (outside : Outside φ)

def reqVerb : Text := "REQ".toList

def countVerb : Text := "COUNT".toList

/-- A frame that asks the relay for something or publishes. -/
def IsRequest (text : Text) : Prop :=
  ∃ kind, outside.verb text = some kind ∧ (kind = reqVerb ∨ kind = countVerb ∨ kind = eventVerb)

/-- What lets a frame with a verb pass to the relay. -/
inductive Passes (session : GateSession) (directory : ReadDirectory) : Verb → Prop
  | req (authed : session.authedPubkey.isSome = true) : Passes session directory .req
  | event {pubkey : Text} (authed : session.authedPubkey = some pubkey)
      (member : (directory.reader pubkey).isSome = true) : Passes session directory .event
  | close : Passes session directory .close

section

variable {session : GateSession} {text sent : Text} {directory : ReadDirectory}
  {gifts : GiftBudget} {now : Instant} {gate : Gate} {event : Event}

theorem toRelay_gateEvent {value : Json φ}
    (mem : sent ∈ (session.gateEvent outside text value directory gifts now).1.toRelay) :
    sent = text ∧ Passes session directory .event := by
  simp only [GateSession.gateEvent] at mem
  split at mem
  next => cases mem
  next authed known =>
    split at mem
    next => cases mem
    next found =>
      have member : (directory.reader authed).isSome = true := by
        simpa [Option.isSome_iff_ne_none] using found
      refine ⟨?_, .event known member⟩
      split at mem
      next => cases mem
      split at mem
      next =>
        split at mem
        next => exact List.mem_singleton.mp mem
        next => cases mem
      next => exact List.mem_singleton.mp mem

theorem toRelay_onAuth {value : Json φ} : (session.onAuth outside value).1.toRelay = [] := by
  simp only [GateSession.onAuth]
  cases value.item 1 with
  | none => rfl
  | some event =>
      simp only
      cases outside.verifyAuth event session.challenge with
      | ok pubkey => rfl
      | error reason => rfl

theorem toRelay_onClientText
    (mem : sent ∈ (session.onClientText outside text directory gifts now).1.toRelay) :
    sent = text ∧ ∃ kind, outside.verb text = some kind ∧
      Passes session directory (Verb.of kind) := by
  rw [GateSession.onClientText] at mem
  rw [Outside.verb]
  split at mem
  next => cases mem
  next value parsed =>
    rw [parsed, Option.bind_some]
    split at mem
    next => cases mem
    next kind known =>
      rw [known]
      have passes : sent = text ∧ Passes session directory (Verb.of kind) := by
        revert mem
        cases Verb.of kind with
        | req =>
            intro mem
            simp only [GateSession.gateReq] at mem
            split at mem
            next => cases mem
            next authed =>
              refine ⟨List.mem_singleton.mp mem, .req ?_⟩
              simpa [Option.isSome_iff_ne_none] using authed
        | count => exact fun mem => absurd mem List.not_mem_nil
        | neg => exact fun mem => absurd mem List.not_mem_nil
        | event => exact toRelay_gateEvent outside
        | close => exact fun mem => ⟨List.mem_singleton.mp mem, .close⟩
        | auth =>
            intro mem
            simp only [toRelay_onAuth] at mem
            cases mem
        | other => exact fun mem => absurd mem List.not_mem_nil
      exact ⟨passes.1, kind, rfl, passes.2⟩

theorem passes_of_forwarded (mem : .text sent ∈ gate.forwarded outside event) :
    ∃ kind, outside.verb sent = some kind ∧ Passes gate.session gate.directory (Verb.of kind) ∧
      gate.isOpen = true ∧ ∃ now, event = .client (.text sent) true now := by
  have step := handles_handle outside gate event
  rw [Gate.forwarded] at mem
  generalize gate.handle outside event = result at step mem
  cases step with
  | clientText isOpen text now =>
      rcases List.mem_map.mp mem with ⟨other, other_mem, same⟩
      rcases Message.text.inj same with rfl
      rcases toRelay_onClientText outside other_mem with ⟨rfl, kind, known, passes⟩
      exact ⟨kind, known, passes, isOpen, now, rfl⟩
  | relayText isOpen text => cases mem
  | quiet event result after unauthenticated session toClient toRelay =>
      exact absurd mem (toRelay sent)

theorem forwarded_req (isOpen : gate.isOpen = true) (request : outside.verb text = some reqVerb)
    (authed : gate.session.authedPubkey.isSome = true) :
    .text text ∈ gate.forwarded outside (.client (.text text) true now) := by
  rw [Outside.verb, Option.bind_eq_some_iff] at request
  rcases request with ⟨value, parsed, kind⟩
  have verb : Verb.of reqVerb = .req := rfl
  have signed : gate.session.authedPubkey.isNone = false := by
    simpa [Option.isSome_iff_ne_none] using authed
  rw [Gate.forwarded, Gate.handle, isOpen]
  simp [countsTowardMessageLimit, Gate.forwardClient, GateSession.onClientText, parsed, kind, verb,
    GateSession.gateReq, signed, ClientOutcome.forward]

end

/-! ## Runs -/

/-- Requests are forwarded only while the session is that of an active member. -/
def AdmitsOnlyMembers (steps : List (Step Gate Event)) : Prop :=
  ∀ before step later, steps = before ++ step :: later →
    ∀ text, .text text ∈ step.before.forwarded outside step.event → IsRequest outside text →
      ∃ pubkey, step.before.session.authedPubkey = some pubkey ∧
        AuthenticatedAs outside pubkey before ∧
        (step.before.directory.reader pubkey).isSome = true

def Event.clientText : Event → Option Text
  | .client (.text text) true _ => some text
  | _ => none

/-- A `REQ` on an authenticated session comes while its key is an active member. -/
def ReqFromMember (step : Step Gate Event) : Prop :=
  ∀ text ∈ step.event.clientText, outside.verb text = some reqVerb → step.before.isOpen = true →
    ∀ pubkey ∈ step.before.session.authedPubkey,
      (step.before.directory.reader pubkey).isSome = true

instance (step : Step Gate Event) : Decidable (ReqFromMember outside step) :=
  inferInstanceAs (Decidable (∀ _ ∈ _, _))

theorem Event.eq_of_clientText {event : Event} {text : Text}
    (found : event.clientText = some text) :
    ∃ now, event = .client (.text text) true now := by
  rw [Event.clientText.eq_def] at found
  split at found
  next text now =>
    rcases Option.some.inj found with rfl
    exact ⟨now, rfl⟩
  next => cases found

variable {start final : Gate} {steps : List (Step Gate Event)}

/-- The gate serves members only in exactly the runs whose every `REQ` on an
authenticated session is a member's. -/
theorem admitsOnlyMembers_iff (run : (pump outside).Run start steps final)
    (fresh : start.session.authedPubkey = none) :
    AdmitsOnlyMembers outside steps ↔ ∀ step ∈ steps, ReqFromMember outside step := by
  constructor
  · intro admits step step_mem text found request isOpen pubkey authed
    rcases Event.eq_of_clientText found with ⟨now, same⟩
    rcases List.append_of_mem step_mem with ⟨before, later, split⟩
    have forwarded : .text text ∈ step.before.forwarded outside step.event := by
      rw [same]
      exact forwarded_req outside isOpen request (Option.isSome_of_mem authed)
    rcases admits before step later split text forwarded ⟨_, request, .inl rfl⟩ with
      ⟨key, known, -, member⟩
    rcases Option.some.inj (Eq.trans (Eq.symm known) authed) with rfl
    exact member
  · rintro meets before step later rfl text forwarded ⟨kind, request, verbs⟩
    rcases passes_of_forwarded outside forwarded with
      ⟨other, known, passes, isOpen, now, same⟩
    rcases Option.some.inj (Eq.trans (Eq.symm request) known) with rfl
    have last := authenticatedAs_of_run outside run.reaches_before.1 fresh
    rcases verbs with rfl | rfl | rfl
    · have verb : Verb.of reqVerb = .req := rfl
      rw [verb] at passes
      cases passes with
      | req authed =>
          rcases Option.isSome_iff_exists.mp authed with ⟨pubkey, authed⟩
          have found : step.event.clientText = some text := by rw [same, Event.clientText]
          have member := meets step (by simp) text found request isOpen pubkey authed
          exact ⟨pubkey, authed, last pubkey authed, member⟩
    · have verb : Verb.of countVerb = .count := rfl
      rw [verb] at passes
      cases passes
    · have verb : Verb.of eventVerb = .event := rfl
      rw [verb] at passes
      cases passes with
      | event authed member => exact ⟨_, authed, last _ authed, member⟩

/-! ## A member and a stranger -/

def reqText : Text := "[\"REQ\",\"s\",\x7b\x7d]".toList

def request : Event := .client (.text reqText) true 0

/-- A member's subscription is forwarded. -/
theorem member_admitted :
    signedIn.forwarded testOutside request = [.text reqText] ∧
      AdmitsOnlyMembers testOutside [⟨teamGate, signIn, signedIn⟩,
        ⟨signedIn, request, (signedIn.handle testOutside request).2⟩] := by
  have run : (pump testOutside).Run teamGate [⟨teamGate, signIn, signedIn⟩,
    ⟨signedIn, request, _⟩] _ := (Machine.Run.single rfl).snoc rfl
  exact ⟨by decide +kernel, (admitsOnlyMembers_iff testOutside run rfl).mpr (by decide +kernel)⟩

def strangerIn : Gate :=
  (teamGate.handle testOutside (.client (.text (authText (pk '2'))) true 0)).2

/-- A stranger's subscription is forwarded as well. -/
theorem stranger_forwarded :
    ∃ steps final, (pump testOutside).Run teamGate steps final ∧
      ¬AdmitsOnlyMembers testOutside steps := by
  have run : (pump testOutside).Run teamGate
      [⟨teamGate, .client (.text (authText (pk '2'))) true 0, strangerIn⟩,
        ⟨strangerIn, request, _⟩] _ := (Machine.Run.single rfl).snoc rfl
  refine ⟨_, _, run, ?_⟩
  intro admits
  have inside := admits [⟨teamGate, .client (.text (authText (pk '2'))) true 0, strangerIn⟩]
    ⟨strangerIn, request, _⟩ [] rfl reqText
  dsimp only at inside
  rcases inside (by decide +kernel) ⟨_, by decide +kernel, .inl rfl⟩ with
    ⟨pubkey, authed, -, member⟩
  have stranger : ∀ key ∈ strangerIn.session.authedPubkey,
      (strangerIn.directory.reader key).isSome = false := by decide +kernel
  rw [stranger pubkey authed] at member
  cases member

end ScuffedCrew.RelayPolicy
