import ScuffedCrew.HeroAuth.Resolve
import ScuffedCrew.StateMachine.Run

/-!
# Who may change the hero of a game

The accepted hero changes on an authoritative read.  Before the first of those,
it also changes on the second of two portraits in a row that name one hero.
-/

namespace ScuffedCrew.HeroAuth

open Rust StateMachine

variable {Confidence : Type} [LE Confidence] [DecidableLE Confidence]
  {portraitSwitchMinConf : Confidence} {canonicalize : Text → Text}

/-- What a capture does to the state, and what it stores over an accepted hero. -/
inductive Effect (portraitSwitchMinConf : Confidence) (canonicalize : Text → Text)
    (capture : Capture Confidence) (state : HeroAuthState) (resolved : Resolved) : Prop
  | authorizes {hero : Text} (names : capture.authority? canonicalize = some hero)
      (stores : resolved.hero = hero) (next : resolved.next = state.authorize hero)
  | confirms {hero : Text} (silent : capture.authority? canonicalize = none)
      (names : capture.portrait? portraitSwitchMinConf canonicalize = some hero)
      (accepted : state.acceptedHero = some hero) (stores : resolved.hero = hero)
      (next : resolved.next = { state with portraitPending := none })
  | switches {hero : Text} {count count' : ℕ} (silent : capture.authority? canonicalize = none)
      (names : capture.portrait? portraitSwitchMinConf canonicalize = some hero)
      (never : state.careerEverOk = false) (pending : state.portraitPending = some (hero, count))
      (stores : resolved.hero = hero)
      (next : resolved.next =
        { state with acceptedHero := some hero, portraitPending := some (hero, count') })
  | refuses {hero : Text} {count : ℕ} (silent : capture.authority? canonicalize = none)
      (names : capture.portrait? portraitSwitchMinConf canonicalize = some hero)
      (holds : ∀ previous, state.acceptedHero = some previous → resolved.hero = previous)
      (next : resolved.next = { state with portraitPending := some (hero, count) })
  | holds (silent : capture.authority? canonicalize = none)
      (nobody : capture.portrait? portraitSwitchMinConf canonicalize = none)
      (holds : ∀ previous, state.acceptedHero = some previous →
        resolved.hero = canonicalize previous)
      (next : resolved.next =
        { state with
          acceptedHero := state.acceptedHero.map canonicalize
          portraitPending := none })

section Step

variable {capture : Capture Confidence} {state : HeroAuthState} {hero ocrText : Text}

theorem pending_of_streak {pending : Option (Text × ℕ)}
    (enough : portraitSwitchStreak ≤ portraitStreak pending hero) :
    ∃ count, pending = some (hero, count) := by
  unfold portraitStreak at enough
  split at enough
  next last count =>
    split at enough
    next same => exact ⟨count, by rw [same]⟩
    next => exact absurd enough (by decide)
  next => exact absurd enough (by decide)

theorem effect_of_portrait (silent : capture.authority? canonicalize = none)
    (names : capture.portrait? portraitSwitchMinConf canonicalize = some hero) :
    Effect portraitSwitchMinConf canonicalize capture state
      (resolvePortrait canonicalize hero ocrText state) := by
  unfold resolvePortrait
  split
  next accepted => exact .confirms silent names accepted rfl rfl
  next =>
    simp only [Bool.and_eq_true, Bool.not_eq_true', decide_eq_true_eq]
    split
    next met =>
      rcases pending_of_streak met.2 with ⟨count, pending⟩
      exact .switches silent names met.1 pending rfl rfl
    next =>
      split
      next previous accepted =>
        refine .refuses silent names (fun other found => ?_) rfl
        exact Option.some.inj (accepted.symm.trans found)
      next unaccepted =>
        split
        · exact .refuses silent names (fun other found => by cases unaccepted.symm.trans found) rfl
        · exact .refuses silent names (fun other found => by cases unaccepted.symm.trans found) rfl

/-- Both readers go the same way when the authoritative source names nobody. -/
theorem effect_of_silent {portrait : Option (Text × Confidence)}
    (silent : capture.authority? canonicalize = none)
    (same : capture.portrait? portraitSwitchMinConf canonicalize =
      (Capture.ocrV1 none portrait ocrText).portrait? portraitSwitchMinConf canonicalize) :
    Effect portraitSwitchMinConf canonicalize capture state
      (resolveHero portraitSwitchMinConf canonicalize none portrait ocrText state) := by
  simp only [Capture.portrait?] at same
  unfold resolveHero
  simp only
  split
  next raw confidence met =>
    rw [met] at same
    exact effect_of_portrait silent same
  next unmet =>
    rw [unmet] at same
    split
    next previous accepted =>
      refine .holds silent same (fun other found => ?_) (by rw [accepted]; rfl)
      rw [Option.some.inj (accepted.symm.trans found)]
    next unaccepted =>
      refine .holds silent same (fun other found => ?_) (by rw [unaccepted]; rfl)
      cases unaccepted.symm.trans found

/-- Text is stored only when no hero is accepted. -/
theorem unaccepted_of_ocrText {portrait : Option (Text × Confidence)} {resolved : Resolved}
    (resolves : resolveHero portraitSwitchMinConf canonicalize none portrait ocrText state = resolved)
    (text : resolved.source = .ocrText) :
    state.acceptedHero = none ∧ resolved.next.acceptedHero = none := by
  unfold resolveHero resolvePortrait at resolves
  simp only at resolves
  split at resolves
  next =>
    split at resolves
    next => subst resolves; cases text
    next =>
      split at resolves
      next => subst resolves; cases text
      next =>
        split at resolves
        next => subst resolves; cases text
        next unaccepted =>
          split at resolves
          next => subst resolves; exact ⟨unaccepted, unaccepted⟩
          next => subst resolves; cases text
  next =>
    split at resolves
    next => subst resolves; cases text
    next unaccepted => subst resolves; exact ⟨unaccepted, unaccepted⟩

theorem Effect.of_unaccepted {resolved : Resolved} {source : HeroSource}
    (effect : Effect portraitSwitchMinConf canonicalize capture state resolved)
    (silent : capture.authority? canonicalize = none)
    (unaccepted : state.acceptedHero = none) (still : resolved.next.acceptedHero = none) :
    Effect portraitSwitchMinConf canonicalize capture state ⟨hero, source, resolved.next⟩ := by
  cases effect with
  | authorizes names stores next => cases silent.symm.trans names
  | confirms silent names accepted stores next => cases unaccepted.symm.trans accepted
  | switches silent names never pending stores next =>
      rw [next] at still
      cases still
  | refuses silent names holds next =>
      exact .refuses silent names (fun other found => by cases unaccepted.symm.trans found) next
  | holds silent nobody holds next =>
      exact .holds silent nobody (fun other found => by cases unaccepted.symm.trans found) next

theorem effect_of_resolve (capture : Capture Confidence) (state : HeroAuthState) :
    Effect portraitSwitchMinConf canonicalize capture state
      (capture.resolve portraitSwitchMinConf canonicalize state) := by
  cases capture with
  | ocrV1 career portrait ocrText =>
      cases career with
      | some hero => exact .authorizes rfl rfl rfl
      | none => exact effect_of_silent rfl rfl
  | newReader pack portrait =>
      simp only [Capture.resolve, resolveHeroNewReader]
      split
      next hero names => exact .authorizes names rfl rfl
      next silent =>
        have effect : Effect portraitSwitchMinConf canonicalize (.newReader pack portrait) state
            (resolveHero portraitSwitchMinConf canonicalize none portrait [] state) :=
          effect_of_silent silent rfl
        split
        next text =>
          have unaccepted := unaccepted_of_ocrText rfl text
          exact effect.of_unaccepted silent unaccepted.1 unaccepted.2
        next => exact effect

end Step

/-! ## Runs -/

/-- The captures of one game. -/
def captures (portraitSwitchMinConf : Confidence) (canonicalize : Text → Text) :
    Machine HeroAuthState (Capture Confidence) where
  next state capture := some (capture.resolve portraitSwitchMinConf canonicalize state).next

abbrev CaptureStep (Confidence : Type) := Step HeroAuthState (Capture Confidence)

/-- The hero the capture of the step stores. -/
def stored (portraitSwitchMinConf : Confidence) (canonicalize : Text → Text)
    (step : CaptureStep Confidence) : Text :=
  (step.event.resolve portraitSwitchMinConf canonicalize step.before).hero

/-- After the captures so far, this one may make the hero the accepted one. -/
inductive MaySwitch (portraitSwitchMinConf : Confidence) (canonicalize : Text → Text)
    (earlier : List (CaptureStep Confidence)) (capture : Capture Confidence) (hero : Text) : Prop
  | authoritative (names : capture.authority? canonicalize = some hero)
  | confirmed {init : List (CaptureStep Confidence)} {last : CaptureStep Confidence}
      (never : ∀ step ∈ earlier, step.event.authority? canonicalize = none)
      (preceding : earlier = init ++ [last])
      (names' : last.event.portrait? portraitSwitchMinConf canonicalize = some hero)
      (names : capture.portrait? portraitSwitchMinConf canonicalize = some hero)

/-- What the state knows of the captures so far. -/
structure Remembers (portraitSwitchMinConf : Confidence) (canonicalize : Text → Text)
    (steps : List (CaptureStep Confidence)) (state : HeroAuthState) : Prop where
  never : state.careerEverOk = false → ∀ step ∈ steps, step.event.authority? canonicalize = none
  pending : ∀ hero count, state.portraitPending = some (hero, count) →
    ∃ init last, steps = init ++ [last] ∧
      last.event.portrait? portraitSwitchMinConf canonicalize = some hero
  canonical : ∀ hero, state.acceptedHero = some hero → canonicalize hero = hero

section Runs

variable {steps : List (CaptureStep Confidence)} {state after : HeroAuthState}
  {capture : Capture Confidence}

omit [LE Confidence] [DecidableLE Confidence] in
theorem canonical_of_authority (idempotent : ∀ text, canonicalize (canonicalize text) = canonicalize text)
    {hero : Text} (names : capture.authority? canonicalize = some hero) : canonicalize hero = hero := by
  cases capture with
  | ocrV1 career portrait ocrText =>
      rcases Option.map_eq_some_iff.mp names with ⟨raw, -, rfl⟩
      exact idempotent raw
  | newReader pack portrait =>
      have named := (Option.filter_eq_some_iff.mp names).1
      rcases Option.map_eq_some_iff.mp named with ⟨raw, -, rfl⟩
      exact idempotent raw

theorem canonical_of_portrait (idempotent : ∀ text, canonicalize (canonicalize text) = canonicalize text)
    {hero : Text} (names : capture.portrait? portraitSwitchMinConf canonicalize = some hero) :
    canonicalize hero = hero := by
  cases capture <;> rcases Option.map_eq_some_iff.mp names with ⟨read, -, rfl⟩ <;>
    exact idempotent read.1

theorem Remembers.next (remembers : Remembers portraitSwitchMinConf canonicalize steps state)
    (idempotent : ∀ text, canonicalize (canonicalize text) = canonicalize text)
    (effect : Effect portraitSwitchMinConf canonicalize capture state
      (capture.resolve portraitSwitchMinConf canonicalize state)) :
    Remembers portraitSwitchMinConf canonicalize
      (steps ++ [⟨state, capture, (capture.resolve portraitSwitchMinConf canonicalize state).next⟩])
      (capture.resolve portraitSwitchMinConf canonicalize state).next := by
  have silently : capture.authority? canonicalize = none → state.careerEverOk = false →
      ∀ step ∈ steps ++ [⟨state, capture,
        (capture.resolve portraitSwitchMinConf canonicalize state).next⟩],
        step.event.authority? canonicalize = none := by
    intro silent never step step_mem
    rcases List.mem_append.mp step_mem with before | last
    · exact remembers.never never step before
    · rcases List.mem_singleton.mp last with rfl
      exact silent
  cases effect with
  | authorizes names stores next =>
      rw [next] at silently ⊢
      refine ⟨fun impossible => (by cases impossible), fun _ _ impossible => (by cases impossible), ?_⟩
      intro hero accepted
      rcases Option.some.inj accepted with rfl
      exact canonical_of_authority idempotent names
  | confirms silent names accepted stores next =>
      rw [next] at silently ⊢
      exact ⟨silently silent, fun _ _ impossible => (by cases impossible), remembers.canonical⟩
  | switches silent names never pending stores next =>
      rw [next] at silently ⊢
      refine ⟨silently silent, fun hero count there => ?_, fun hero accepted => ?_⟩
      · rcases Prod.mk.inj (Option.some.inj there) with ⟨rfl, -⟩
        exact ⟨steps, _, rfl, names⟩
      · rcases Option.some.inj accepted with rfl
        exact canonical_of_portrait idempotent names
  | refuses silent names holds next =>
      rw [next] at silently ⊢
      refine ⟨silently silent, fun hero count there => ?_, remembers.canonical⟩
      rcases Prod.mk.inj (Option.some.inj there) with ⟨rfl, -⟩
      exact ⟨steps, _, rfl, names⟩
  | holds silent nobody holds next =>
      rw [next] at silently ⊢
      refine ⟨silently silent, fun _ _ impossible => (by cases impossible), fun hero accepted => ?_⟩
      rcases Option.map_eq_some_iff.mp accepted with ⟨previous, -, rfl⟩
      exact idempotent previous

theorem remembers_of_run (idempotent : ∀ text, canonicalize (canonicalize text) = canonicalize text)
    (run : (captures portraitSwitchMinConf canonicalize).Run .initial steps state) :
    Remembers portraitSwitchMinConf canonicalize steps state := by
  apply run.history (Remembers portraitSwitchMinConf canonicalize)
  · exact ⟨fun _ _ step_mem => (by cases step_mem), fun _ _ none => (by cases none),
      fun _ none => (by cases none)⟩
  · intro steps state capture after step remembers
    rcases Option.some.inj step with rfl
    exact remembers.next idempotent (effect_of_resolve capture state)

/-- The accepted hero changes only where it may, and is what every capture after it stores. -/
theorem hero_has_authority
    (idempotent : ∀ text, canonicalize (canonicalize text) = canonicalize text)
    {earlier later : List (CaptureStep Confidence)} {step : CaptureStep Confidence}
    (run : (captures portraitSwitchMinConf canonicalize).Run .initial
      (earlier ++ step :: later) state) :
    (step.after.acceptedHero ≠ step.before.acceptedHero →
      ∃ hero, step.after.acceptedHero = some hero ∧
        MaySwitch portraitSwitchMinConf canonicalize earlier step.event hero) ∧
    ∀ hero, step.before.acceptedHero = some hero →
      step.after.acceptedHero = some (stored portraitSwitchMinConf canonicalize step) ∧
        (stored portraitSwitchMinConf canonicalize step = hero ∨
          MaySwitch portraitSwitchMinConf canonicalize earlier step.event
            (stored portraitSwitchMinConf canonicalize step)) := by
  rcases run.reaches_before with ⟨before, taken⟩
  have remembers := remembers_of_run idempotent before
  have effect : Effect portraitSwitchMinConf canonicalize step.event step.before _ :=
    effect_of_resolve step.event step.before
  have after : step.after = (step.event.resolve portraitSwitchMinConf canonicalize step.before).next :=
    (Option.some.inj taken).symm
  rw [after]
  unfold stored
  cases effect with
  | @authorizes hero names stores next =>
      rw [next, stores]
      exact ⟨fun _ => ⟨hero, rfl, .authoritative names⟩, fun _ _ => ⟨rfl, .inr (.authoritative names)⟩⟩
  | @confirms hero silent names accepted stores next =>
      rw [next, stores]
      refine ⟨fun changed => absurd rfl changed, fun previous found => ⟨accepted, .inl ?_⟩⟩
      exact Option.some.inj (accepted.symm.trans found)
  | @switches hero count count' silent names never pending stores next =>
      rcases remembers.pending hero count pending with ⟨init, last, preceding, names'⟩
      have may : MaySwitch portraitSwitchMinConf canonicalize earlier step.event hero :=
        .confirmed (remembers.never never) preceding names' names
      rw [next, stores]
      exact ⟨fun _ => ⟨hero, rfl, may⟩, fun _ _ => ⟨rfl, .inr may⟩⟩
  | refuses silent names holds next =>
      refine ⟨fun changed => absurd (by rw [next]) changed, fun previous found => ?_⟩
      rw [next, holds previous found]
      exact ⟨found, .inl rfl⟩
  | holds silent nobody holds next =>
      have kept : step.before.acceptedHero.map canonicalize = step.before.acceptedHero := by
        cases accepted : step.before.acceptedHero with
        | none => rfl
        | some previous => rw [Option.map_some, remembers.canonical previous accepted]
      refine ⟨fun changed => absurd (by rw [next]; exact kept) changed, fun previous found => ?_⟩
      rw [next, holds previous found, remembers.canonical previous found]
      exact ⟨kept.trans found, .inl rfl⟩

theorem second_portrait_accepted :
    ∃ hero, (some "Ana".toList : Option Text) = some hero ∧
      MaySwitch (85 : ℕ) id
        [⟨.initial, .newReader none (some ("Ana".toList, 90)),
          ⟨false, none, some ("Ana".toList, 1)⟩⟩]
        (.newReader none (some ("Ana".toList, 90))) hero := by
  have run : (captures (85 : ℕ) id).Run .initial
      ([⟨.initial, .newReader none (some ("Ana".toList, 90)),
          ⟨false, none, some ("Ana".toList, 1)⟩⟩] ++
        ⟨⟨false, none, some ("Ana".toList, 1)⟩, .newReader none (some ("Ana".toList, 90)),
          ⟨false, some "Ana".toList, some ("Ana".toList, 2)⟩⟩ :: [])
      ⟨false, some "Ana".toList, some ("Ana".toList, 2)⟩ := .snoc (.snoc .refl rfl) rfl
  exact (hero_has_authority (fun _ => rfl) run).1 (by decide)

end Runs

end ScuffedCrew.HeroAuth
