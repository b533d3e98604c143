import ScuffedCrew.Rust.Numeric
import ScuffedCrew.Rust.Text

/-!
# The hero of a capture

Which hero a capture stores, from the authoritative read, the portrait and the
text it has, and what the game remembers of the captures before it.
-/

namespace ScuffedCrew.HeroAuth

open Rust

/-- `PORTRAIT_SWITCH_STREAK`. -/
def portraitSwitchStreak : ℕ := 2

structure HeroAuthState where
  careerEverOk : Bool
  acceptedHero : Option Text
  portraitPending : Option (Text × ℕ)
  deriving DecidableEq

namespace HeroAuthState

/-- `HeroAuthState::default`. -/
def initial : HeroAuthState := ⟨false, none, none⟩

/-- The state after an authoritative read of a hero. -/
def authorize (state : HeroAuthState) (hero : Text) : HeroAuthState :=
  { state with
    careerEverOk := true
    acceptedHero := some hero
    portraitPending := none }

end HeroAuthState

inductive HeroSource
  | careerPanel
  | heroPack
  | portrait
  | held
  | ocrText
  deriving DecidableEq

def unknown : Text := "Unknown".toList

def isUnknown (hero : Text) : Bool :=
  let hero := hero.trim
  hero.isEmpty || hero.eqIgnoreAsciiCase "unknown".toList

/-- The hero stored, where it comes from, and the state after it. -/
structure Resolved where
  hero : Text
  source : HeroSource
  next : HeroAuthState
  deriving DecidableEq

variable {Confidence : Type} [LE Confidence] [DecidableLE Confidence]

section Resolve

variable (portraitSwitchMinConf : Confidence) (canonicalize : Text → Text)

/-- The portraits in a row that name the hero, with this one. -/
def portraitStreak (pending : Option (Text × ℕ)) (hero : Text) : ℕ :=
  match pending with
  | some (last, count) => if last = hero then saturatingAdd 32 count 1 else 1
  | none => 1

/-- `resolve_hero` when the portrait meets the floor and names `hero`. -/
def resolvePortrait (hero ocrText : Text) (state : HeroAuthState) : Resolved :=
  if state.acceptedHero = some hero then
    ⟨hero, .portrait, { state with portraitPending := none }⟩
  else
    let streak := portraitStreak state.portraitPending hero
    let next := { state with portraitPending := some (hero, streak) }
    -- The confidence is compared with the floor a second time here, after it has met it.
    if !next.careerEverOk && decide (portraitSwitchStreak ≤ streak) then
      ⟨hero, .portrait, { next with acceptedHero := some hero }⟩
    else
      match next.acceptedHero with
      | some previous => ⟨previous, .held, next⟩
      | none =>
          let ocr := canonicalize ocrText
          if !ocr.isEmpty && decide (ocr ≠ unknown) then ⟨ocr, .ocrText, next⟩
          else ⟨unknown, .held, next⟩

def resolveHero (career : Option Text) (portrait : Option (Text × Confidence)) (ocrText : Text)
    (state : HeroAuthState) : Resolved :=
  match career with
  | some hero => ⟨canonicalize hero, .careerPanel, state.authorize (canonicalize hero)⟩
  | none =>
      match portrait.filter fun read => decide (portraitSwitchMinConf ≤ read.2) with
      | some (raw, _) => resolvePortrait canonicalize (canonicalize raw) ocrText state
      | none =>
          let next := { state with portraitPending := none }
          match next.acceptedHero with
          | some previous =>
              let previous := canonicalize previous
              ⟨previous, .held, { next with acceptedHero := some previous }⟩
          | none => ⟨canonicalize ocrText, .ocrText, next⟩

def resolveHeroNewReader (pack : Option Text) (portrait : Option (Text × Confidence))
    (state : HeroAuthState) : Resolved :=
  match (pack.map canonicalize).filter fun hero => !isUnknown hero with
  | some hero => ⟨hero, .heroPack, state.authorize hero⟩
  | none =>
      let resolved := resolveHero portraitSwitchMinConf canonicalize none portrait [] state
      if resolved.source = .ocrText then ⟨unknown, .held, resolved.next⟩ else resolved

end Resolve

/-- What one capture reads, under either reader. -/
inductive Capture (Confidence : Type)
  | ocrV1 (career : Option Text) (portrait : Option (Text × Confidence)) (ocrText : Text)
  | newReader (pack : Option Text) (portrait : Option (Text × Confidence))

namespace Capture

variable (portraitSwitchMinConf : Confidence) (canonicalize : Text → Text)

def resolve (capture : Capture Confidence) (state : HeroAuthState) : Resolved :=
  match capture with
  | ocrV1 career portrait ocrText =>
      resolveHero portraitSwitchMinConf canonicalize career portrait ocrText state
  | newReader pack portrait =>
      resolveHeroNewReader portraitSwitchMinConf canonicalize pack portrait state

/-- The hero the authoritative source names. -/
def authority? : Capture Confidence → Option Text
  | ocrV1 career _ _ => career.map canonicalize
  | newReader pack _ => (pack.map canonicalize).filter fun hero => !isUnknown hero

/-- The hero a portrait at or above the trust floor names. -/
def portrait? : Capture Confidence → Option Text
  | ocrV1 _ portrait _ | newReader _ portrait =>
      (portrait.filter fun read => decide (portraitSwitchMinConf ≤ read.2)).map fun read =>
        canonicalize read.1

end Capture

end ScuffedCrew.HeroAuth
