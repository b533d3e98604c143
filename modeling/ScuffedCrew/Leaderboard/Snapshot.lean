import Mathlib.Algebra.Order.Field.Rat
import Mathlib.Data.Char
import Mathlib.Data.List.Lex
import ScuffedCrew.Rust.HashMap
import ScuffedCrew.Rust.Lists
import ScuffedCrew.Rust.Numeric
import ScuffedCrew.Rust.Text

/-!
# The leaderboard snapshot

Every hero's totals from one pass over the rows, and the boards that are cut
from them.  The order in which a hash map gives its values is a parameter.  The
ratios are exact fractions.
-/

namespace ScuffedCrew.Leaderboard

open Rust

/-- The least games for winrate and kd. -/
def leaderboardMinGames : ℕ := 5

structure MemberLeaderboardRow where
  memberId : Text
  displayName : Text
  games : U32
  winrate : ℚ
  kd : ℚ
  deriving DecidableEq

/-- One member's totals on a single hero. -/
structure LeaderboardHeroAgg where
  memberId : Text
  displayName : Text
  games : U32
  wins : U32
  elims : U32
  deaths : U32
  /-- The games that feed `elims` and `deaths`. -/
  kdGames : U32
  deriving DecidableEq

namespace LeaderboardHeroAgg

def merge (existing agg : LeaderboardHeroAgg) : LeaderboardHeroAgg :=
  { existing with
    games := existing.games + agg.games
    wins := existing.wins + agg.wins
    elims := existing.elims + agg.elims
    deaths := existing.deaths + agg.deaths
    kdGames := existing.kdGames + agg.kdGames }

def row (agg : LeaderboardHeroAgg) : MemberLeaderboardRow where
  memberId := agg.memberId
  displayName := agg.displayName
  games := agg.games
  winrate := agg.wins.val / agg.games.val
  kd := agg.elims.val / max agg.deaths.val 1

/-- The floors of the metric. -/
def ranked (metric : Text) (agg : LeaderboardHeroAgg) : Bool :=
  agg.games.val != 0 &&
    !((metric == "winrate".toList || metric == "kd".toList) &&
      agg.games.val < leaderboardMinGames) &&
    !(metric == "kd".toList && agg.kdGames.val < leaderboardMinGames)

end LeaderboardHeroAgg

def mergeAggOne (all : HashMap Text LeaderboardHeroAgg) (agg : LeaderboardHeroAgg) :
    HashMap Text LeaderboardHeroAgg :=
  match all.lookup agg.memberId with
  | some existing => all.insert agg.memberId (existing.merge agg)
  | none => all.insert agg.memberId agg

/-- The two maps of `from_rows`. -/
structure Scan where
  byHero : HashMap Text (HashMap Text LeaderboardHeroAgg)
  all : HashMap Text LeaderboardHeroAgg

def Scan.add (scan : Scan) (row : Text × LeaderboardHeroAgg) : Scan :=
  if row.2.games.val = 0 then scan
  else
    { byHero := scan.byHero.insert row.1
        (mergeAggOne ((scan.byHero.lookup row.1).getD ∅) row.2)
      all := mergeAggOne scan.all row.2 }

def scanRows (rows : List (Text × LeaderboardHeroAgg)) : Scan := rows.foldl Scan.add ⟨∅, ∅⟩

/-- The order in which `into_values` goes through the map of all heroes or of one. -/
structure Iteration where
  intoValues : Option Text → HashMap Text LeaderboardHeroAgg → List LeaderboardHeroAgg
  perm : ∀ hero map, (intoValues hero map).Perm map.values

structure LeaderboardSnapshot where
  all : List LeaderboardHeroAgg
  byHero : HashMap Text (List LeaderboardHeroAgg)

namespace LeaderboardSnapshot

def fromRows (iteration : Iteration) (rows : List (Text × LeaderboardHeroAgg)) :
    LeaderboardSnapshot :=
  let scan := scanRows rows
  { all := iteration.intoValues none scan.all
    byHero := scan.byHero.mapValues fun hero members => iteration.intoValues (some hero) members }

/-- The members of a board; the empty hero is every hero. -/
def source (snapshot : LeaderboardSnapshot) (hero : Text) : List LeaderboardHeroAgg :=
  if hero.isEmpty then snapshot.all else (snapshot.byHero.lookup hero).getD []

/-- The comparisons of the metric, one after the other; the member id comes last. -/
def order (metric : Text) : MemberLeaderboardRow → MemberLeaderboardRow → Ordering :=
  if metric = "kd".toList then
    compareLex (descending MemberLeaderboardRow.kd)
      (compareLex (descending fun row => row.games.val) (compareOn MemberLeaderboardRow.memberId))
  else if metric = "games".toList then
    compareLex (descending fun row => row.games.val)
      (compareLex (descending MemberLeaderboardRow.winrate)
        (compareOn MemberLeaderboardRow.memberId))
  else
    compareLex (descending MemberLeaderboardRow.winrate)
      (compareLex (descending fun row => row.games.val) (compareOn MemberLeaderboardRow.memberId))

def project (snapshot : LeaderboardSnapshot) (metric hero : Text) (limit : ℕ) :
    List MemberLeaderboardRow :=
  (sortBy (order metric) (((snapshot.source hero).filter (LeaderboardHeroAgg.ranked metric)).map
    LeaderboardHeroAgg.row)).take limit

end LeaderboardSnapshot

end ScuffedCrew.Leaderboard
