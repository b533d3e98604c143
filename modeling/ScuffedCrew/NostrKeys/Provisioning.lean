import ScuffedCrew.Rust.Bytes
import ScuffedCrew.StateMachine.Pool

/-!
# Keys of a member

`provision_auth_token` decides from the row its caller was read with whether
the member has a key, generates one if not, and stores it with an update that
looks at nothing.  Other calls of it, and writes that set a key, go on between
any two of its statements.  The keys of Nostr, the site's encryption and the
relay URLs are parameters.
-/

namespace ScuffedCrew.NostrKeys

open Rust StateMachine

inductive NostrKeyMode
  | serverManaged
  | external
  deriving DecidableEq

/-- What the row of the member says about its key. -/
structure Member (Blob : Type) where
  nostrPubkey : Option Text
  nostrKeyMode : Option NostrKeyMode
  nostrSecretKeyEncrypted : Option Blob
  deriving DecidableEq

structure AuthTokenRequest where
  relayUrl : Text
  challenge : Option Text

/-- An event and the key it is signed with. -/
structure AuthEvent (SecretKey : Type) where
  signedWith : SecretKey
  relayUrl : Text
  challenge : Text

structure AuthTokenResponse (SecretKey : Type) where
  authEvent : AuthEvent SecretKey
  pubkey : Text
  relayUrl : Text

structure ErrorResponse where
  status : ℕ
  error : Text

def maxAuthChallengeBytes : ℕ := 256

/-- The keys, and the encryption under a nonce. -/
structure NostrAuthService (SecretKey Blob : Type) where
  publicKey : SecretKey → Text
  toSecretBytes : SecretKey → List UInt8
  keysFromSecret : List UInt8 → Option SecretKey
  encryptBytes : ℕ → List UInt8 → Text → Option Blob
  decryptBytes : Blob → Text → Option (List UInt8)

/-- The relay of an allowed list that a URL stands for, and the service of a site with a key. -/
structure Site (SecretKey Blob : Type) where
  allowedAuthRelay : Text → List Text → Option Text
  crypto : Option (NostrAuthService SecretKey Blob)

inductive AuthError
  | encryptionFailed
  | decryptionFailed
  | invalidKeyData
  | pubkeyMismatch
  | relayUrlRejected
  | challengeTooLong

namespace AuthTokenRequest

def challengeText (request : AuthTokenRequest) : Text := request.challenge.getD []

end AuthTokenRequest

namespace NostrAuthService

variable {SecretKey Blob : Type} (service : NostrAuthService SecretKey Blob)

def aad (pubkey : Text) : Text := "nostr_sk|pk:".toList ++ pubkey

/-- The key and the nonce are the ones the random source gives. -/
def generateKeypair (secret : SecretKey) (nonce : ℕ) : Except AuthError (Text × Blob) :=
  let pubkey := service.publicKey secret
  match service.encryptBytes nonce (service.toSecretBytes secret) (aad pubkey) with
  | none => .error .encryptionFailed
  | some encrypted => .ok (pubkey, encrypted)

def provisionAuthEvent (allowedAuthRelay : Text → List Text → Option Text) (encrypted : Blob)
    (ownerPubkey relayUrl challenge : Text) (allowed : List Text) :
    Except AuthError (AuthTokenResponse SecretKey) :=
  if maxAuthChallengeBytes < challenge.byteLen then .error .challengeTooLong
  else
    match allowedAuthRelay relayUrl allowed with
    | none => .error .relayUrlRejected
    | some relayUrl =>
        match service.decryptBytes encrypted (aad ownerPubkey) with
        | none => .error .decryptionFailed
        | some plaintext =>
            match service.keysFromSecret plaintext with
            | none => .error .invalidKeyData
            | some secret =>
                if !(service.publicKey secret).eqIgnoreAsciiCase ownerPubkey then
                  .error .pubkeyMismatch
                else .ok ⟨⟨secret, relayUrl, challenge⟩, service.publicKey secret, relayUrl⟩

end NostrAuthService

namespace ErrorResponse

def badRequest (error : String) : ErrorResponse := ⟨400, error.toList⟩

def internal (error : String) : ErrorResponse := ⟨500, error.toList⟩

def challengeTooLong : ErrorResponse := badRequest "Challenge is too long"

def relayNotAllowed : ErrorResponse := badRequest "Relay URL is not allowed"

def cryptoMissing : ErrorResponse :=
  ⟨503, "Encryption not configured (ENCRYPTION_KEY required)".toList⟩

/-- `map_auth_provision_error`. -/
def ofAuthError : AuthError → ErrorResponse
  | .challengeTooLong => challengeTooLong
  | .relayUrlRejected => relayNotAllowed
  | _ => internal "Internal error"

end ErrorResponse

/-- A write that sets a key: of `update_member` (an external key without a secret) or of
`update_member_nostr_keys`. -/
structure KeyWrite (Blob : Type) where
  pubkey : Text
  keyMode : NostrKeyMode
  encryptedSecret : Option Blob

/-- What a statement finds besides the row, and what the random source gives. -/
structure Reply (SecretKey : Type) where
  admitted : Bool
  allowed : List Text
  secret : SecretKey
  nonce : ℕ

/-- A call, by the statement it makes next. -/
inductive KeyCall (SecretKey Blob : Type)
  | extractCaller (request : AuthTokenRequest)
  | loadSettings (request : AuthTokenRequest) (caller : Option NostrKeyMode)
  | loadMember (request : AuthTokenRequest) (allowed : List Text)
  | selectMember (request : AuthTokenRequest) (allowed : List Text) (pubkey : Text)
      (encrypted : Blob)
  | storeKeys (request : AuthTokenRequest) (allowed : List Text) (pubkey : Text)
      (encrypted : Blob)
  | answered (request : AuthTokenRequest)
      (answer : Except ErrorResponse (AuthTokenResponse SecretKey))
  | selectWritten (write : KeyWrite Blob)
  | writeKey (write : KeyWrite Blob)
  | written (write : KeyWrite Blob) (updated : Option (Member Blob))

namespace KeyCall

variable {SecretKey Blob : Type}

section Answers

variable (site : Site SecretKey Blob) (request : AuthTokenRequest) (allowed : List Text)

/-- The call signs, and returns the event or the error. -/
def sign (encrypted : Blob) (pubkey : Text) : KeyCall SecretKey Blob :=
  match site.crypto with
  | none => answered request (.error .cryptoMissing)
  | some service =>
      match service.provisionAuthEvent site.allowedAuthRelay encrypted pubkey request.relayUrl
        request.challengeText allowed with
      | .error error => answered request (.error (.ofAuthError error))
      | .ok response => answered request (.ok response)

/-- Where a call goes that knows the relays, by the key mode of its caller. -/
def afterSettings (caller : Option NostrKeyMode) (reply : Reply SecretKey) :
    KeyCall SecretKey Blob :=
  if (site.allowedAuthRelay request.relayUrl reply.allowed).isNone then
    answered request (.error .relayNotAllowed)
  else
    match site.crypto with
    | none => answered request (.error .cryptoMissing)
    | some service =>
        match caller with
        | some .external =>
            answered request (.error (.badRequest
              "External key users must sign AUTH events client-side (NIP-07)"))
        | some .serverManaged => loadMember request reply.allowed
        | none =>
            match service.generateKeypair reply.secret reply.nonce with
            | .error _ => answered request (.error (.internal "Failed to generate Nostr keypair"))
            | .ok (pubkey, encrypted) => selectMember request reply.allowed pubkey encrypted

/-- Where a call goes that has loaded the row with the secret. -/
def afterLoad (member : Option (Member Blob)) : KeyCall SecretKey Blob :=
  match member with
  | none => answered request (.error (.internal "Member not found"))
  | some member =>
      match member.nostrSecretKeyEncrypted with
      | none =>
          answered request (.error (.internal "Server-managed key missing encrypted secret"))
      | some encrypted =>
          match member.nostrPubkey with
          | none => answered request (.error (.internal "Server-managed key missing public key"))
          | some pubkey => sign site request allowed encrypted pubkey

def notStored : KeyCall SecretKey Blob :=
  answered request (.error (.internal "Failed to store keypair"))

end Answers

/-- `update_member_nostr_keys` and `update_member` look at nothing of the row they update. -/
def step (site : Site SecretKey Blob) (member : Option (Member Blob)) :
    KeyCall SecretKey Blob → Reply SecretKey →
      Option (Option (Member Blob) × KeyCall SecretKey Blob)
  | extractCaller request, reply =>
      match member with
      | none => some (member, answered request (.error ⟨403, "Not an org member".toList⟩))
      | some caller =>
          if !reply.admitted then
            some (member, answered request (.error ⟨403, "Membership inactive".toList⟩))
          else if maxAuthChallengeBytes < request.challengeText.byteLen then
            some (member, answered request (.error .challengeTooLong))
          else some (member, loadSettings request caller.nostrKeyMode)
  | loadSettings request caller, reply => some (member, afterSettings site request caller reply)
  | loadMember request allowed, _ => some (member, afterLoad site request allowed member)
  | selectMember request allowed pubkey encrypted, _ =>
      match member with
      | none => some (member, notStored request)
      | some _ => some (member, storeKeys request allowed pubkey encrypted)
  | storeKeys request allowed pubkey encrypted, _ =>
      match member with
      | none => some (member, notStored request)
      | some _ =>
          some (some ⟨some pubkey, some .serverManaged, some encrypted⟩,
            sign site request allowed encrypted pubkey)
  | answered _ _, _ => none
  | selectWritten write, _ =>
      match member with
      | none => some (member, written write none)
      | some _ => some (member, writeKey write)
  | writeKey write, _ =>
      match member with
      | none => some (member, written write none)
      | some _ =>
          some (some ⟨some write.pubkey, some write.keyMode, write.encryptedSecret⟩,
            written write (some ⟨some write.pubkey, some write.keyMode, write.encryptedSecret⟩))
  | written _ _, _ => none

/-- The call has made no statement. -/
def Fresh : KeyCall SecretKey Blob → Prop
  | extractCaller _ | selectWritten _ => True
  | _ => False

instance decidableFresh : DecidablePred (@Fresh SecretKey Blob)
  | extractCaller _ => .isTrue trivial
  | selectWritten _ => .isTrue trivial
  | loadSettings _ _ => .isFalse id
  | loadMember _ _ => .isFalse id
  | selectMember _ _ _ _ => .isFalse id
  | storeKeys _ _ _ _ => .isFalse id
  | answered _ _ => .isFalse id
  | writeKey _ => .isFalse id
  | written _ _ => .isFalse id

end KeyCall

variable {SecretKey Blob : Type}

/-- The calls for one member, over its row. -/
def keyCalls (site : Site SecretKey Blob) :
    Machine (Pool (Option (Member Blob)) (KeyCall SecretKey Blob)) (Turn (Reply SecretKey)) :=
  interleaving (KeyCall.step site)

abbrev KeyStep (SecretKey Blob : Type) :=
  Step (Pool (Option (Member Blob)) (KeyCall SecretKey Blob)) (Turn (Reply SecretKey))

/-- The key that is stored. -/
def storedKey (member : Option (Member Blob)) : Option Text := member.bind Member.nostrPubkey

namespace KeyStep

variable (step : KeyStep SecretKey Blob) (index : ℕ)

/-- The call generates a key and stores it. -/
def Provisions : Prop :=
  step.event.process = index ∧ step.before.shared.isSome ∧
    ∃ request allowed pubkey encrypted,
      step.before.processes[index]? = some (.storeKeys request allowed pubkey encrypted)

/-- The call reads a caller without a key. -/
def FindsNoKey : Prop :=
  step.event.process = index ∧
    (∃ request, step.before.processes[index]? = some (.extractCaller request)) ∧
    storedKey step.before.shared = none

/-- The step writes the keys of the row. -/
def WritesKey : Prop :=
  step.before.shared.isSome ∧
    ((∃ request allowed pubkey encrypted, step.before.processes[step.event.process]? =
        some (.storeKeys request allowed pubkey encrypted)) ∨
      ∃ write, step.before.processes[step.event.process]? = some (.writeKey write))

end KeyStep

end ScuffedCrew.NostrKeys
