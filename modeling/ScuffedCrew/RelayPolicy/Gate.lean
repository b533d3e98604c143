import ScuffedCrew.RelayPolicy.Session
import ScuffedCrew.StateMachine.Run

/-!
# A connection through the gate

The pump between a client and the relay.  Refreshes replace the directory while
it runs, and other connections spend the same gift-wrap budget.
-/

namespace ScuffedCrew.RelayPolicy

open Rust StateMachine

inductive Message
  | text (text : Text)
  | binary (payload : List UInt8)
  | ping (payload : List UInt8)
  | pong (payload : List UInt8)
  | close
  deriving DecidableEq

structure Gate where
  session : GateSession
  directory : ReadDirectory
  gifts : GiftBudget
  isOpen : Bool

inductive Event
  /-- A frame of the client, and whether the limit for its address allows it. -/
  | client (message : Message) (allowed : Bool) (now : Instant)
  | relay (message : Message)
  | refresh (members : List MemberAcl) (groups : List (Text × GroupAcl))
  /-- Other connections and the sweep. -/
  | spend (gifts : GiftBudget)

structure Sent where
  toClient : List Message
  toRelay : List Message

def Sent.nothing : Sent := ⟨[], []⟩

def countsTowardMessageLimit : Message → Bool
  | .text _ => true
  | .binary _ => true
  | .ping _ => true
  | .pong _ => false
  | .close => false

namespace Gate

variable {φ : Type} (outside : Outside φ) (gate : Gate)

def new (challenge : Text) (directory : ReadDirectory) (gifts : GiftBudget) : Gate :=
  ⟨.new challenge, directory, gifts, true⟩

def forwardClient (now : Instant) : Message → Sent × Gate
  | .text text =>
      let (outcome, session, gifts) :=
        gate.session.onClientText outside text gate.directory gate.gifts now
      (⟨outcome.toClient.map .text, outcome.toRelay.map .text⟩, { gate with session, gifts })
  | .ping payload => (⟨[.pong payload], []⟩, gate)
  | .pong _ => (.nothing, gate)
  | .close => (.nothing, { gate with isOpen := false })
  | .binary _ => (.nothing, gate)

def forwardRelay : Message → Sent × Gate
  | .text text =>
      (⟨((gate.session.onRelayText outside text gate.directory).map .text).toList, []⟩, gate)
  | .ping payload => (⟨[], [.pong payload]⟩, gate)
  | .pong _ => (.nothing, gate)
  | .close => (.nothing, { gate with isOpen := false })
  | .binary _ => (.nothing, gate)

def handle : Event → Sent × Gate
  | .client message allowed now =>
      if !gate.isOpen then (.nothing, gate)
      else if countsTowardMessageLimit message && !allowed then
        (⟨[.text (outside.reply (.notice "rate-limited: too many messages".toList))], []⟩,
          { gate with isOpen := false })
      else gate.forwardClient outside now message
  | .relay message =>
      if !gate.isOpen then (.nothing, gate) else gate.forwardRelay outside message
  | .refresh members groups =>
      (.nothing, { gate with directory := .fromParts members groups })
  | .spend gifts => (.nothing, { gate with gifts })

def delivered (event : Event) : List Message := (gate.handle outside event).1.toClient

def forwarded (event : Event) : List Message := (gate.handle outside event).1.toRelay

def authenticates : Event → Option Text
  | .client (.text text) allowed _ =>
      if gate.isOpen && allowed then gate.session.authenticates outside text else none
  | _ => none

end Gate

def pump {φ : Type} (outside : Outside φ) : Machine Gate Event :=
  ⟨fun gate event => some (gate.handle outside event).2⟩

/-! ## The steps of a gate -/

section

variable {φ : Type} (outside : Outside φ) {gate : Gate} {event : Event}

/-- What a step does: a text of the client or of the relay, or nothing that matters. -/
inductive Handles (gate : Gate) : Event → Sent × Gate → Prop
  | clientText (isOpen : gate.isOpen = true) (text : Text) (now : Instant) :
      Handles gate (.client (.text text) true now) (gate.forwardClient outside now (.text text))
  | relayText (isOpen : gate.isOpen = true) (text : Text) :
      Handles gate (.relay (.text text)) (gate.forwardRelay outside (.text text))
  | quiet (event : Event) (sent : Sent) (after : Gate)
      (unauthenticated : gate.authenticates outside event = none)
      (session : after.session = gate.session)
      (toClient : ∀ text, .text text ∈ sent.toClient → ∃ reply, text = outside.reply reply)
      (toRelay : ∀ text, .text text ∉ sent.toRelay) : Handles gate event (sent, after)

theorem handles_silent {sent : Sent} {after : Gate}
    (unauthenticated : gate.authenticates outside event = none)
    (session : after.session = gate.session)
    (toClient : ∀ text, .text text ∉ sent.toClient) (toRelay : ∀ text, .text text ∉ sent.toRelay) :
    Handles outside gate event (sent, after) :=
  .quiet event sent after unauthenticated session
    (fun text mem => absurd mem (toClient text)) toRelay

theorem handles_nothing {after : Gate}
    (unauthenticated : gate.authenticates outside event = none)
    (session : after.session = gate.session) : Handles outside gate event (.nothing, after) :=
  handles_silent outside unauthenticated session (by simp [Sent.nothing]) (by simp [Sent.nothing])

theorem handles_handle (gate : Gate) (event : Event) :
    Handles outside gate event (gate.handle outside event) := by
  cases event with
  | client message allowed now =>
      cases isOpen : gate.isOpen with
      | false =>
          rw [Gate.handle, isOpen]
          apply handles_nothing outside _ rfl
          cases message <;> simp [Gate.authenticates, isOpen]
      | true =>
          by_cases limited : (countsTowardMessageLimit message && !allowed) = true
          · have refused : allowed = false := by simpa using (Bool.and_eq_true_iff.mp limited).2
            subst refused
            simp only [Gate.handle, isOpen, limited, Bool.not_true, if_true]
            refine .quiet _ _ _ ?_ rfl ?_ (by simp)
            · cases message <;> simp [Gate.authenticates]
            · intro text mem
              exact ⟨_, Message.text.inj (List.mem_singleton.mp mem)⟩
          · simp only [Gate.handle, isOpen, limited, Bool.not_true]
            cases message with
            | text text =>
                have granted : allowed = true := by simpa [countsTowardMessageLimit] using limited
                subst granted
                exact .clientText isOpen text now
            | binary payload => exact handles_nothing outside rfl rfl
            | ping payload => exact handles_silent outside rfl rfl (by simp) (by simp)
            | pong payload => exact handles_nothing outside rfl rfl
            | close => exact handles_nothing outside rfl rfl
  | relay message =>
      cases isOpen : gate.isOpen with
      | false =>
          rw [Gate.handle, isOpen]
          exact handles_nothing outside rfl rfl
      | true =>
          simp only [Gate.handle, isOpen, Bool.not_true]
          cases message with
          | text text => exact .relayText isOpen text
          | binary payload => exact handles_nothing outside rfl rfl
          | ping payload => exact handles_silent outside rfl rfl (by simp) (by simp)
          | pong payload => exact handles_nothing outside rfl rfl
          | close => exact handles_nothing outside rfl rfl
  | refresh members groups => exact handles_nothing outside rfl rfl
  | spend gifts => exact handles_nothing outside rfl rfl

theorem authedPubkey_handle :
    (gate.handle outside event).2.session.authedPubkey =
      (gate.authenticates outside event).or gate.session.authedPubkey := by
  have step := handles_handle outside gate event
  generalize gate.handle outside event = result at step
  cases step with
  | clientText isOpen text now =>
      simp only [Gate.forwardClient, Gate.authenticates, isOpen, Bool.and_self, if_true]
      exact authedPubkey_onClientText outside
  | relayText isOpen text => rfl
  | quiet event sent after unauthenticated session => rw [unauthenticated, session, Option.none_or]

end

end ScuffedCrew.RelayPolicy
