import ScuffedCrew.NostrKeys.Provisioning

/-!
# Keys that stay

A call that generates a key stores it over whatever the row holds by then.  It
overwrites no key just when it has read a row without one and nobody has written
one since.  Whatever it signs is signed with a key that was stored when it wrote
or read it.
-/

namespace ScuffedCrew.NostrKeys

open Rust StateMachine

variable {SecretKey Blob : Type} {site : Site SecretKey Blob} {member after : Option (Member Blob)}
  {call moved : KeyCall SecretKey Blob} {reply : Reply SecretKey} {index : ℕ}
  {start pool later final : Pool (Option (Member Blob)) (KeyCall SecretKey Blob)}
  {turn : Turn (Reply SecretKey)} {steps : List (KeyStep SecretKey Blob)}

/-! ## What a statement does -/

/-- The call has found no key mode and has not stored its own key. -/
def KeyCall.Generating : KeyCall SecretKey Blob → Prop
  | .loadSettings _ none | .selectMember _ _ _ _ | .storeKeys _ _ _ _ => True
  | _ => False

/-- The event is signed with the key, up to the case of its hexadecimal digits. -/
def SignedFor (site : Site SecretKey Blob) (response : AuthTokenResponse SecretKey)
    (pubkey : Text) : Prop :=
  ∃ service, site.crypto = some service ∧
    (service.publicKey response.authEvent.signedWith).eqIgnoreAsciiCase pubkey = true

/-- What a statement does to the row and to its call. -/
inductive Calls (site : Site SecretKey Blob) (member : Option (Member Blob))
    (call : KeyCall SecretKey Blob) : Option (Member Blob) → KeyCall SecretKey Blob → Prop
  | ends (request : AuthTokenRequest) (error : ErrorResponse) :
      Calls site member call member (.answered request (.error error))
  | reads (request : AuthTokenRequest) (caller : Member Blob)
      (at_extract : call = .extractCaller request) (found : member = some caller) :
      Calls site member call member (.loadSettings request caller.nostrKeyMode)
  | manages (request : AuthTokenRequest) (allowed : List Text)
      (at_settings : call = .loadSettings request (some .serverManaged)) :
      Calls site member call member (.loadMember request allowed)
  | generates (request : AuthTokenRequest) (allowed : List Text) (pubkey : Text) (encrypted : Blob)
      (at_settings : call = .loadSettings request none) :
      Calls site member call member (.selectMember request allowed pubkey encrypted)
  | selects (request : AuthTokenRequest) (allowed : List Text) (pubkey : Text) (encrypted : Blob)
      (at_select : call = .selectMember request allowed pubkey encrypted) :
      Calls site member call member (.storeKeys request allowed pubkey encrypted)
  | signs (request : AuthTokenRequest) (allowed : List Text) (pubkey : Text)
      (response : AuthTokenResponse SecretKey) (at_load : call = .loadMember request allowed)
      (stored : storedKey member = some pubkey) (signed : SignedFor site response pubkey) :
      Calls site member call member (.answered request (.ok response))
  | stores (request : AuthTokenRequest) (allowed : List Text) (pubkey : Text) (encrypted : Blob)
      (answer : Except ErrorResponse (AuthTokenResponse SecretKey))
      (at_store : call = .storeKeys request allowed pubkey encrypted) (found : member.isSome)
      (signed : ∀ response, answer = .ok response → SignedFor site response pubkey) :
      Calls site member call (some ⟨some pubkey, some .serverManaged, some encrypted⟩)
        (.answered request answer)
  | missing (write : KeyWrite Blob) : Calls site member call member (.written write none)
  | begins (write : KeyWrite Blob) (at_select : call = .selectWritten write) :
      Calls site member call member (.writeKey write)
  | writes (write : KeyWrite Blob) (updated : Option (Member Blob))
      (at_write : call = .writeKey write) (found : member.isSome) :
      Calls site member call (some ⟨some write.pubkey, some write.keyMode, write.encryptedSecret⟩)
        (.written write updated)

/-- What is signed is signed with the key it is asked for. -/
theorem sign_cases (site : Site SecretKey Blob) (request : AuthTokenRequest) (allowed : List Text)
    (encrypted : Blob) (pubkey : Text) :
    (∃ error, KeyCall.sign site request allowed encrypted pubkey =
        .answered request (.error error)) ∨
      ∃ response, KeyCall.sign site request allowed encrypted pubkey =
        .answered request (.ok response) ∧ SignedFor site response pubkey := by
  unfold KeyCall.sign
  cases crypto : site.crypto with
  | none => exact .inl ⟨_, rfl⟩
  | some service =>
      simp only
      split
      next error _ => exact .inl ⟨_, rfl⟩
      next response provisioned =>
        refine .inr ⟨response, rfl, service, crypto, ?_⟩
        unfold NostrAuthService.provisionAuthEvent at provisioned
        split at provisioned
        next => cases provisioned
        next =>
          split at provisioned
          next => cases provisioned
          next =>
            split at provisioned
            next => cases provisioned
            next =>
              split at provisioned
              next => cases provisioned
              next =>
                split at provisioned
                next => cases provisioned
                next same =>
                  rcases Except.ok.inj provisioned with rfl
                  simpa using same

theorem calls_of_step (taken : call.step site member reply = some (after, moved)) :
    Calls site member call after moved := by
  cases call with
  | extractCaller request =>
      simp only [KeyCall.step] at taken
      split at taken
      next =>
        rcases Prod.mk.inj (Option.some.inj taken) with ⟨rfl, rfl⟩
        exact .ends request _
      next caller =>
        split at taken
        next =>
          rcases Prod.mk.inj (Option.some.inj taken) with ⟨rfl, rfl⟩
          exact .ends request _
        next =>
          split at taken <;> rcases Prod.mk.inj (Option.some.inj taken) with ⟨rfl, rfl⟩
          next => exact .ends request _
          next => exact .reads request caller rfl rfl
  | loadSettings request caller =>
      simp only [KeyCall.step, Option.some.injEq, Prod.mk.injEq] at taken
      rcases taken with ⟨rfl, rfl⟩
      unfold KeyCall.afterSettings
      split
      next => exact .ends request _
      next =>
        split
        next => exact .ends request _
        next =>
          split
          next => exact .ends request _
          next => exact .manages request _ rfl
          next =>
            split
            next => exact .ends request _
            next => exact .generates request _ _ _ rfl
  | loadMember request allowed =>
      simp only [KeyCall.step, Option.some.injEq, Prod.mk.injEq] at taken
      rcases taken with ⟨rfl, rfl⟩
      unfold KeyCall.afterLoad
      split
      next => exact .ends request _
      next row =>
        split
        next => exact .ends request _
        next encrypted _ =>
          split
          next => exact .ends request _
          next pubkey stored =>
            rcases sign_cases site request allowed encrypted pubkey with
              ⟨error, signs⟩ | ⟨response, signs, signed⟩ <;> rw [signs]
            · exact .ends request error
            · exact .signs request allowed pubkey response rfl stored signed
  | selectMember request allowed pubkey encrypted =>
      simp only [KeyCall.step] at taken
      split at taken <;> rcases Prod.mk.inj (Option.some.inj taken) with ⟨rfl, rfl⟩
      next => exact .ends request _
      next => exact .selects request allowed pubkey encrypted rfl
  | storeKeys request allowed pubkey encrypted =>
      simp only [KeyCall.step] at taken
      split at taken <;> rcases Prod.mk.inj (Option.some.inj taken) with ⟨rfl, rfl⟩
      next => exact .ends request _
      next =>
        rcases sign_cases site request allowed encrypted pubkey with
          ⟨error, signs⟩ | ⟨response, signs, signed⟩ <;> rw [signs]
        · exact .stores request allowed pubkey encrypted _ rfl rfl (by simp)
        · refine .stores request allowed pubkey encrypted _ rfl rfl fun other same => ?_
          rcases Except.ok.inj same with rfl
          exact signed
  | answered => cases taken
  | selectWritten write =>
      simp only [KeyCall.step] at taken
      split at taken <;> rcases Prod.mk.inj (Option.some.inj taken) with ⟨rfl, rfl⟩
      next => exact .missing write
      next => exact .begins write rfl
  | writeKey write =>
      simp only [KeyCall.step] at taken
      split at taken <;> rcases Prod.mk.inj (Option.some.inj taken) with ⟨rfl, rfl⟩
      next => exact .missing write
      next => exact .writes write _ rfl rfl
  | written => cases taken

namespace Calls

/-- No call begins again. -/
theorem not_fresh (calls : Calls site member call after moved) : ¬moved.Fresh := by
  cases calls <;> exact id

/-- A call that is generating a key was so before, or has read a caller. -/
theorem generating_cases (calls : Calls site member call after moved)
    (generating : moved.Generating) :
    after = member ∧ (call.Generating ∧ (∀ request, call ≠ .extractCaller request) ∧
        (∀ request allowed pubkey encrypted,
          call ≠ .storeKeys request allowed pubkey encrypted) ∧
        (∀ write, call ≠ .writeKey write) ∨
      ∃ request, call = .extractCaller request) := by
  cases calls with
  | ends => exact absurd generating id
  | reads request caller at_extract => exact ⟨rfl, .inr ⟨request, at_extract⟩⟩
  | manages => exact absurd generating id
  | generates request allowed pubkey encrypted at_settings =>
      rcases at_settings with rfl
      exact ⟨rfl, .inl ⟨trivial, by simp, by simp, by simp⟩⟩
  | selects request allowed pubkey encrypted at_select =>
      rcases at_select with rfl
      exact ⟨rfl, .inl ⟨trivial, by simp, by simp, by simp⟩⟩
  | signs => exact absurd generating id
  | stores => exact absurd generating id
  | missing => exact absurd generating id
  | begins => exact absurd generating id
  | writes => exact absurd generating id

/-- The row stays as it is, unless its keys are written. -/
theorem row_cases (calls : Calls site member call after moved) :
    after = member ∨ member.isSome ∧ storedKey after ≠ none ∧
      ((∃ request allowed pubkey encrypted, call = .storeKeys request allowed pubkey encrypted) ∨
        ∃ write, call = .writeKey write) := by
  cases calls with
  | stores request allowed pubkey encrypted answer at_store found =>
      exact .inr ⟨found, by simp [storedKey], .inl ⟨request, allowed, pubkey, encrypted, at_store⟩⟩
  | writes write updated at_write found =>
      exact .inr ⟨found, by simp [storedKey], .inr ⟨write, at_write⟩⟩
  | ends => exact .inl rfl
  | reads => exact .inl rfl
  | manages => exact .inl rfl
  | generates => exact .inl rfl
  | selects => exact .inl rfl
  | signs => exact .inl rfl
  | missing => exact .inl rfl
  | begins => exact .inl rfl

end Calls

/-- Where the keys are written, a key is stored. -/
theorem stored_of_writes (taken : call.step site member reply = some (after, moved))
    (found : member.isSome = true)
    (writing : (∃ request allowed pubkey encrypted,
        call = .storeKeys request allowed pubkey encrypted) ∨ ∃ write, call = .writeKey write) :
    storedKey after ≠ none := by
  rcases Option.isSome_iff_exists.mp found with ⟨row, rfl⟩
  rcases writing with ⟨request, allowed, pubkey, encrypted, rfl⟩ | ⟨write, rfl⟩
  · simp only [KeyCall.step, Option.some.injEq, Prod.mk.injEq] at taken
    rcases taken with ⟨rfl, -⟩
    simp [storedKey]
  · simp only [KeyCall.step, Option.some.injEq, Prod.mk.injEq] at taken
    rcases taken with ⟨rfl, -⟩
    simp [storedKey]

/-! ## The key a generating call finds -/

/-- The call has read a row without a key, and no key has been written since. -/
def Undisturbed (steps : List (KeyStep SecretKey Blob)) (index : ℕ) : Prop :=
  Since (fun step => KeyStep.FindsNoKey step index) (fun step => ¬KeyStep.WritesKey step) steps

/-- A generating call is undisturbed as long as no key is stored. -/
structure Reading (steps : List (KeyStep SecretKey Blob))
    (pool : Pool (Option (Member Blob)) (KeyCall SecretKey Blob)) : Prop where
  unmoved : ∀ index call, pool.processes[index]? = some call → call.Fresh →
    ∀ step ∈ steps, step.event.process ≠ index
  found : ∀ index call, pool.processes[index]? = some call → call.Generating →
    (Undisturbed steps index ↔ storedKey pool.shared = none)

theorem Reading.step (reading : Reading steps pool)
    (taken : (keyCalls site).next pool turn = some later) :
    Reading (steps ++ [⟨pool, turn, later⟩]) later := by
  rcases interleaving_next_eq_some.mp taken with ⟨call, shared, moved, found, accessed, rfl⟩
  have calls := calls_of_step accessed
  constructor
  · intro index other at_index fresh step step_mem
    rcases Pool.of_set at_index with ⟨-, rfl⟩ | ⟨differs, before⟩
    · exact absurd fresh calls.not_fresh
    · rcases List.mem_append.mp step_mem with earlier | last
      · exact reading.unmoved index other before fresh step earlier
      · rcases List.mem_singleton.mp last with rfl
        exact Ne.symm differs
  · intro index other at_index generating
    unfold Undisturbed
    rw [Since.snoc_iff]
    rcases Pool.of_set at_index with ⟨rfl, rfl⟩ | ⟨differs, before⟩
    · rcases calls.generating_cases generating with ⟨rfl, ⟨was, unread, stores, writes⟩ | ⟨request, rfl⟩⟩
      · have last_finds : ¬KeyStep.FindsNoKey
            ⟨pool, turn, ⟨pool.shared, pool.processes.set turn.process other⟩⟩ turn.process := by
          rintro ⟨-, ⟨request, at_extract⟩, -⟩
          exact unread request (Option.some.inj (found.symm.trans at_extract))
        have last_writes : ¬KeyStep.WritesKey
            ⟨pool, turn, ⟨pool.shared, pool.processes.set turn.process other⟩⟩ := by
          rintro ⟨-, ⟨request, allowed, pubkey, encrypted, at_store⟩ | ⟨write, at_write⟩⟩
          · exact stores request allowed pubkey encrypted
              (Option.some.inj (found.symm.trans at_store))
          · exact writes write (Option.some.inj (found.symm.trans at_write))
        have earlier := reading.found turn.process call found was
        unfold Undisturbed at earlier
        simp only [last_finds, last_writes, false_or, not_false_eq_true, true_and]
        exact earlier
      · have never : ¬Since (fun step => KeyStep.FindsNoKey step turn.process)
            (fun step => ¬KeyStep.WritesKey step) steps := by
          rintro ⟨before, step, after, rfl, finds, -⟩
          exact reading.unmoved turn.process _ found trivial step (by simp) finds.1
        simp only [never, and_false, or_false]
        constructor
        · intro finds
          exact finds.2.2
        · intro none_stored
          exact ⟨rfl, ⟨request, found⟩, none_stored⟩
    · have last_finds : ¬KeyStep.FindsNoKey
          ⟨pool, turn, ⟨shared, pool.processes.set turn.process moved⟩⟩ index := by
        rintro ⟨same, -⟩
        exact differs same.symm
      have earlier := reading.found index other before generating
      unfold Undisturbed at earlier
      by_cases writes : KeyStep.WritesKey
          ⟨pool, turn, ⟨shared, pool.processes.set turn.process moved⟩⟩
      · have stored : storedKey shared ≠ none := by
          apply stored_of_writes accessed writes.1
          rcases writes.2 with ⟨request, allowed, pubkey, encrypted, at_store⟩ | ⟨write, at_write⟩
          · exact .inl ⟨request, allowed, pubkey, encrypted,
              Option.some.inj (found.symm.trans at_store)⟩
          · exact .inr ⟨write, Option.some.inj (found.symm.trans at_write)⟩
        simp [last_finds, writes, stored]
      · have same : shared = pool.shared := by
          rcases calls.row_cases with same | ⟨here, -, writing⟩
          · exact same
          · refine absurd ⟨here, ?_⟩ writes
            rcases writing with ⟨request, allowed, pubkey, encrypted, rfl⟩ | ⟨write, rfl⟩
            · exact .inl ⟨request, allowed, pubkey, encrypted, found⟩
            · exact .inr ⟨write, found⟩
        rcases same with rfl
        simp only [last_finds, writes, false_or, not_false_eq_true, true_and]
        exact earlier

theorem reading_of_run (called : ∀ call ∈ start.processes, call.Fresh)
    (run : (keyCalls site).Run start steps final) : Reading steps final := by
  apply run.history Reading
  · refine ⟨by simp, fun index call at_index generating => ?_⟩
    have fresh := called call (List.mem_of_getElem? at_index)
    cases call with
    | extractCaller => exact absurd generating id
    | selectWritten => exact absurd generating id
    | loadSettings => exact absurd fresh id
    | loadMember => exact absurd fresh id
    | selectMember => exact absurd fresh id
    | storeKeys => exact absurd fresh id
    | answered => exact absurd fresh id
    | writeKey => exact absurd fresh id
    | written => exact absurd fresh id
  · intro steps state event after taken reading
    exact reading.step taken

/-! ## What is signed -/

/-- The call reads the key of the row to sign with it, or has stored it. -/
def KeyStep.UsesKey (step : KeyStep SecretKey Blob) (index : ℕ) : Prop :=
  step.event.process = index ∧
    ((∃ request allowed, step.before.processes[index]? = some (.loadMember request allowed)) ∨
      KeyStep.Provisions step index)

/-- An event is signed with the key that was stored when its call wrote or read it. -/
def SignedAsStored (site : Site SecretKey Blob) (steps : List (KeyStep SecretKey Blob))
    (pool : Pool (Option (Member Blob)) (KeyCall SecretKey Blob)) : Prop :=
  ∀ index request response,
    pool.processes[index]? = some (.answered request (.ok response)) →
      ∃ step ∈ steps, KeyStep.UsesKey step index ∧
        ∃ pubkey, storedKey step.after.shared = some pubkey ∧ SignedFor site response pubkey

theorem SignedAsStored.step (signed : SignedAsStored site steps pool)
    (taken : (keyCalls site).next pool turn = some later) :
    SignedAsStored site (steps ++ [⟨pool, turn, later⟩]) later := by
  rcases interleaving_next_eq_some.mp taken with ⟨call, shared, moved, found, accessed, rfl⟩
  intro index request response at_index
  rcases Pool.of_set at_index with ⟨rfl, answered⟩ | ⟨-, before⟩
  · refine ⟨_, List.mem_append_right _ (List.mem_singleton_self _), ?_⟩
    have calls := calls_of_step accessed
    rw [← answered] at calls
    generalize reached : KeyCall.answered request (.ok response) = final at calls
    cases calls with
    | signs other allowed pubkey event at_load stored signs =>
        rcases KeyCall.answered.inj reached with ⟨rfl, same⟩
        rcases Except.ok.inj same with rfl
        rcases at_load with rfl
        exact ⟨⟨rfl, .inl ⟨request, allowed, found⟩⟩, pubkey, stored, signs⟩
    | stores other allowed pubkey encrypted answer at_store here signs =>
        rcases KeyCall.answered.inj reached with ⟨rfl, rfl⟩
        rcases at_store with rfl
        exact ⟨⟨rfl, .inr ⟨rfl, here, request, allowed, pubkey, encrypted, found⟩⟩, pubkey, rfl,
          signs response rfl⟩
    | ends => simp at reached
    | reads => cases reached
    | manages => cases reached
    | generates => cases reached
    | selects => cases reached
    | missing => cases reached
    | begins => cases reached
    | writes => cases reached
  · rcases signed index request response before with ⟨step, step_mem, uses⟩
    exact ⟨step, List.mem_append_left _ step_mem, uses⟩

/-! ## Provisioning -/

/-- No call that generates a key overwrites one, nor displaces one that an event was signed with. -/
structure KeepsIdentity (site : Site SecretKey Blob) (steps : List (KeyStep SecretKey Blob))
    (final : Pool (Option (Member Blob)) (KeyCall SecretKey Blob)) : Prop where
  overwrites : ∀ step ∈ steps, ∀ index, KeyStep.Provisions step index →
    storedKey step.before.shared = none
  displaces : ∀ (index : ℕ) (request : AuthTokenRequest) (response : AuthTokenResponse SecretKey),
    final.processes[index]? = some (.answered request (.ok response)) →
      ∀ step ∈ steps, ∀ other, KeyStep.Provisions step other → ∀ pubkey,
        storedKey step.before.shared = some pubkey → ¬SignedFor site response pubkey

/-- Every event is signed with a key that was stored when its call wrote or read it; and no call
overwrites or displaces a key just when every call that stores a generated key has read a row
without one, and no key has been written since. -/
theorem identity_kept_iff (called : ∀ call ∈ start.processes, call.Fresh)
    (run : (keyCalls site).Run start steps final) :
    SignedAsStored site steps final ∧
      (KeepsIdentity site steps final ↔
        ∀ first step rest, steps = first ++ step :: rest → ∀ index,
          KeyStep.Provisions step index → Undisturbed first index) := by
  have signed : SignedAsStored site steps final := by
    apply run.history (SignedAsStored site)
    · intro index request response at_index
      exact absurd (called _ (List.mem_of_getElem? at_index)) id
    · intro steps state event after taken signed
      exact signed.step taken
  have found (first step rest) (split : steps = first ++ step :: rest) (index)
      (provisions : KeyStep.Provisions step index) :
      Undisturbed first index ↔ storedKey step.before.shared = none := by
    rcases split with rfl
    rcases provisions with ⟨-, -, request, allowed, pubkey, encrypted, at_store⟩
    exact (reading_of_run called run.reaches_before.1).found index _ at_store trivial
  refine ⟨signed, ?_, ?_⟩
  · intro keeps first step rest split index provisions
    apply (found first step rest split index provisions).mpr
    exact keeps.overwrites step (by simp [split]) index provisions
  · intro undisturbed
    have overwrites : ∀ step ∈ steps, ∀ index, KeyStep.Provisions step index →
        storedKey step.before.shared = none := by
      intro step step_mem index provisions
      rcases List.append_of_mem step_mem with ⟨first, rest, split⟩
      exact (found first step rest split index provisions).mp
        (undisturbed first step rest split index provisions)
    refine ⟨overwrites, ?_⟩
    intro index request response _ step step_mem other provisions pubkey stored
    rw [overwrites step step_mem other provisions] at stored
    cases stored

/-! ## Two calls, one after the other and at once -/

/-- Keys that are their own numbers, and an encryption that hides nothing. -/
def plainService : NostrAuthService ℕ (List UInt8) where
  publicKey secret := (toString secret).toList
  toSecretBytes secret := [UInt8.ofNat secret]
  keysFromSecret bytes := bytes.head?.map UInt8.toNat
  encryptBytes _ bytes _ := some bytes
  decryptBytes blob _ := some blob

def plainSite : Site ℕ (List UInt8) where
  allowedAuthRelay url allowed := if url ∈ allowed then some url else none
  crypto := some plainService

def relay : Text := "wss://site/relay".toList

def tokenCall : KeyCall ℕ (List UInt8) := .extractCaller ⟨relay, none⟩

def newMember : Member (List UInt8) := ⟨none, none, none⟩

/-- The random source gives the process its key. -/
def turnOf (process : ℕ) : Turn (Reply ℕ) := ⟨process, ⟨true, [relay], process + 1, 0⟩⟩

def twoCalls : Pool (Option (Member (List UInt8))) (KeyCall ℕ (List UInt8)) :=
  ⟨some newMember, [tokenCall, tokenCall]⟩

/-- The second call reads the key of the first. -/
def afterEachOther : List (Turn (Reply ℕ)) := [0, 0, 0, 0, 1, 1, 1].map turnOf

/-- Both calls read the member before either stores its key. -/
def atOnce : List (Turn (Reply ℕ)) := [0, 1, 0, 1, 0, 1, 0, 1].map turnOf

def KeyCall.stores : KeyCall ℕ (List UInt8) → Bool
  | .storeKeys _ _ _ _ => true
  | _ => false

theorem identity_kept_in_turn : ∃ final,
    (keyCalls plainSite).exec twoCalls afterEachOther = some final ∧
      SignedAsStored plainSite ((keyCalls plainSite).stepsOf twoCalls afterEachOther) final ∧
      Undisturbed (((keyCalls plainSite).stepsOf twoCalls afterEachOther).take 3) 0 := by
  have run : (keyCalls plainSite).Run twoCalls
      ((keyCalls plainSite).stepsOf twoCalls afterEachOther) _ := .of_exec rfl
  have called : ∀ call ∈ twoCalls.processes, call.Fresh := by decide
  have stores : ∀ step ∈ (keyCalls plainSite).stepsOf twoCalls afterEachOther,
      ∀ call ∈ step.before.processes[step.event.process]?, call.stores = true →
        storedKey step.before.shared = none := by decide
  have kept := identity_kept_iff called run
  refine ⟨_, rfl, kept.1, kept.2.mp ⟨?_, ?_⟩ _ _ _ rfl 0
    ⟨rfl, rfl, ⟨relay, none⟩, [relay], _, _, rfl⟩⟩
  · rintro step step_mem index ⟨rfl, -, request, allowed, pubkey, encrypted, at_store⟩
    exact stores step step_mem _ at_store rfl
  · rintro index request response - step step_mem other
      ⟨rfl, -, request, allowed, pubkey, encrypted, at_store⟩ key stored
    rw [stores step step_mem _ at_store rfl] at stored
    cases stored

/-- Both calls return an event, and the key of the first is gone. -/
theorem first_key_is_displaced : ∃ final request first second,
    (keyCalls plainSite).exec twoCalls atOnce = some final ∧
      final.processes = [.answered request (.ok first), .answered request (.ok second)] ∧
      storedKey final.shared = some "2".toList ∧
      ¬KeepsIdentity plainSite ((keyCalls plainSite).stepsOf twoCalls atOnce) final := by
  have overwritten : ∃ step ∈ (keyCalls plainSite).stepsOf twoCalls atOnce,
      storedKey step.before.shared = some "1".toList ∧ step.before.shared.isSome ∧
        ∃ call ∈ step.before.processes[step.event.process]?, call.stores = true := by decide
  refine ⟨_, _, _, _, rfl, rfl, rfl, fun keeps => ?_⟩
  rcases overwritten with ⟨step, step_mem, stored, here, call, found, stores⟩
  have provisions : KeyStep.Provisions step step.event.process := by
    cases call with
    | storeKeys request allowed pubkey encrypted =>
        exact ⟨rfl, here, request, allowed, pubkey, encrypted, found⟩
    | extractCaller => cases stores
    | loadSettings => cases stores
    | loadMember => cases stores
    | selectMember => cases stores
    | answered => cases stores
    | selectWritten => cases stores
    | writeKey => cases stores
    | written => cases stores
  rw [keeps.overwrites step step_mem _ provisions] at stored
  cases stored

end ScuffedCrew.NostrKeys
