import ScuffedCrew.Rust.Text

/-!
# Hero names and roles

The hero table of the pack, and the role a stored hero name has.
-/

namespace ScuffedCrew.Parse

open Rust

inductive HeroRole
  | tank
  | damage
  | support
  deriving DecidableEq, Repr

namespace HeroRole

def display : HeroRole → Text
  | .tank => "Tank".toList
  | .damage => "Damage".toList
  | .support => "Support".toList

end HeroRole

structure HeroName where
  file : Text
  display : Text
  role : HeroRole
  deriving DecidableEq

def heroName : String × String × HeroRole → HeroName
  | (file, display, role) => ⟨file.toList, display.toList, role⟩

/-- `HERO_NAMES`: every hero file in the pack, with the name and role a save stores. -/
def heroNames : List HeroName :=
  [
    ("ana.png", "Ana", .support),
    ("anran.png", "Anran", .damage),
    ("ashe.png", "Ashe", .damage),
    ("baptiste.png", "Baptiste", .support),
    ("bastion.png", "Bastion", .damage),
    ("brigitte.png", "Brigitte", .support),
    ("cassidy.png", "Cassidy", .damage),
    ("dmon.png", "D.Mon", .tank),
    ("doctrine.png", "Doctrine", .support),
    ("domina.png", "Domina", .tank),
    ("doomfist.png", "Doomfist", .tank),
    ("dva.png", "D.Va", .tank),
    ("echo.png", "Echo", .damage),
    ("emre.png", "Emre", .damage),
    ("freja.png", "Freja", .damage),
    ("genji.png", "Genji", .damage),
    ("hanzo.png", "Hanzo", .damage),
    ("hazard.png", "Hazard", .tank),
    ("illari.png", "Illari", .support),
    ("jetpack-cat.png", "Jetpack Cat", .support),
    ("junker-queen.png", "Junker Queen", .tank),
    ("junkrat.png", "Junkrat", .damage),
    ("juno.png", "Juno", .support),
    ("kiriko.png", "Kiriko", .support),
    ("lifeweaver.png", "Lifeweaver", .support),
    ("lucio.png", "Lúcio", .support),
    ("mauga.png", "Mauga", .tank),
    ("mei.png", "Mei", .damage),
    ("mercy.png", "Mercy", .support),
    ("mizuki.png", "Mizuki", .support),
    ("moira.png", "Moira", .support),
    ("orisa.png", "Orisa", .tank),
    ("pharah.png", "Pharah", .damage),
    ("ramattra.png", "Ramattra", .tank),
    ("reaper.png", "Reaper", .damage),
    ("reinhardt.png", "Reinhardt", .tank),
    ("roadhog.png", "Roadhog", .tank),
    ("shion.png", "Shion", .damage),
    ("sierra.png", "Sierra", .damage),
    ("sigma.png", "Sigma", .tank),
    ("sojourn.png", "Sojourn", .damage),
    ("soldier-76.png", "Soldier: 76", .damage),
    ("sombra.png", "Sombra", .support),
    ("symmetra.png", "Symmetra", .damage),
    ("torbjorn.png", "Torbjörn", .damage),
    ("tracer.png", "Tracer", .damage),
    ("vendetta.png", "Vendetta", .damage),
    ("venture.png", "Venture", .damage),
    ("widowmaker.png", "Widowmaker", .damage),
    ("winston.png", "Winston", .tank),
    ("wrecking-ball.png", "Wrecking Ball", .tank),
    ("wuyang.png", "Wuyang", .support),
    ("zarya.png", "Zarya", .tank),
    ("zenyatta.png", "Zenyatta", .support)
  ].map heroName

/-- `HERO_PACK_PLACEHOLDERS`. -/
def heroPackPlaceholders : List Text :=
  [
    "special/empty_01.png",
    "special/placeholder_01.png", "special/placeholder_02.png", "special/placeholder_03.png",
    "special/placeholder_04.png", "special/placeholder_05.png", "special/placeholder_06.png",
    "special/skull_01.png", "special/skull_02.png", "special/skull_03.png",
    "special/skull_04.png", "special/skull_05.png", "special/skull_06.png"
  ].map String.toList

/-- File name without a directory or `.png`.  A display name is left as written. -/
def packFileStem (raw : Text) : Text :=
  let base : Text :=
    (raw.trim.reverse.takeWhile fun letter => letter != '/' && letter != '\\').reverse
  ((base.stripEnd ".png".toList).orElse fun _ => base.stripEnd ".PNG".toList).getD base

def isPlaceholderHero (raw : Text) : Bool :=
  let stem := packFileStem raw
  let bare : Text := stem.dropWhile (· == '?')
  let lower := bare.toAsciiLowercase
  !stem.isEmpty &&
    (heroPackPlaceholders.any (fun path => packFileStem path == stem) ||
      ["placeholder".toList, "skull".toList, "empty".toList].any fun word =>
        lower == word || (word ++ ['_']).isPrefixOf lower || (word ++ ['-']).isPrefixOf lower)

/-- One letter of `fold_hero_key`.  The Unicode lower case of the Kelvin sign is `k`, and that
of `İ` is `i` with a combining dot, which the fold drops. -/
def foldHeroLetter (letter : Char) : Option Char :=
  if letter ∈ "áàãâäÁÀÃÂÄ".toList then some 'a'
  else if letter ∈ "éèêëÉÈÊË".toList then some 'e'
  else if letter ∈ "íìîïÍÌÎÏİ".toList then some 'i'
  else if letter ∈ "óòõôöÓÒÕÔÖ".toList then some 'o'
  else if letter ∈ "úùûüÚÙÛÜ".toList then some 'u'
  else if letter ∈ "çÇ".toList then some 'c'
  else if letter ∈ "ñÑ".toList then some 'n'
  else if letter == Char.ofNat 0x212A then some 'k'
  else if letter.isAlphanum then some letter.toLower
  else none

def foldHeroKey (name : Text) : Text := name.filterMap foldHeroLetter

def roleForHeroName (name : Text) : Option HeroRole :=
  let key := foldHeroKey (packFileStem name)
  if key.isEmpty || isPlaceholderHero name then none
  else
    (heroNames.find? fun hero =>
      foldHeroKey (packFileStem hero.file) == key || foldHeroKey hero.display == key).map
      HeroName.role

def guessRole (hero : Text) : Text :=
  ((roleForHeroName hero).map HeroRole.display).getD "Unknown".toList

end ScuffedCrew.Parse
