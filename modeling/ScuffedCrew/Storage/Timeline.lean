import Mathlib.Data.List.Sort
import ScuffedCrew.Storage.Match

/-!
# Hero timeline

The consecutive same-hero runs of a session's snapshots, in capture order, with
the members' decisions about single segments applied.
-/

namespace ScuffedCrew.Storage

open Rust

/-- `BTreeMap::insert` on the sorted decisions. -/
def insertResolution (resolution : SegmentResolution) :
    List SegmentResolution → List SegmentResolution
  | [] => [resolution]
  | other :: rest =>
      if resolution.segment < other.segment then resolution :: other :: rest
      else if resolution.segment = other.segment then resolution :: rest
      else other :: insertResolution resolution rest

/-- The decisions on any snapshot, by segment index; the last row wins. -/
def collectSegmentResolutions (snapshots : List PersonalMatch) : List SegmentResolution :=
  (snapshots.flatMap PersonalMatch.segmentResolutions).foldl
    (fun byIndex resolution => insertResolution resolution byIndex) []

namespace HeroSegment

def opened (snapshot : PersonalMatch) : HeroSegment where
  hero := snapshot.hero
  role := snapshot.role
  firstSeen := snapshot.playedAt
  lastSeen := snapshot.playedAt
  snapshots := 1
  confirmed := false
  resolution := none

def extended (segment : HeroSegment) (snapshot : PersonalMatch) : HeroSegment :=
  { segment with lastSeen := snapshot.playedAt, snapshots := segment.snapshots + 1 }

/-- One snapshot of the loop: it is skipped, continues the last run, or opens one. -/
def append (segments : List HeroSegment) (snapshot : PersonalMatch) : List HeroSegment :=
  if snapshot.hero.isEmpty || snapshot.hero == "Unknown".toList then segments
  else
    match segments.getLast? with
    | some last =>
        if last.hero = snapshot.hero then segments.dropLast ++ [last.extended snapshot]
        else segments ++ [opened snapshot]
    | none => segments ++ [opened snapshot]

def resolve (segment : HeroSegment) (action : Text) : HeroSegment :=
  { segment with
    resolution := some action
    confirmed :=
      if action = segmentConfirm then true
      else if action = segmentDismiss then false
      else segment.confirmed }

end HeroSegment

def deriveHeroSegments (snapshots : List PersonalMatch) (resolutions : List SegmentResolution) :
    List HeroSegment :=
  let ordered := snapshots.insertionSort fun first second => first.playedAt ≤ second.playedAt
  let segments := (ordered.foldl HeroSegment.append []).map fun segment =>
    { segment with confirmed := decide (2 ≤ segment.snapshots) }
  resolutions.foldl
    (fun segments resolution =>
      segments.modify resolution.segment fun segment => segment.resolve resolution.action)
    segments

/-- The decisions of a session after one more: a repeat replaces the one on its segment, and an
unrecognized action clears it. -/
def withResolution (resolutions : List SegmentResolution) (segment : ℕ) (action : Text) :
    List SegmentResolution :=
  let kept := resolutions.filter fun resolution => resolution.segment != segment
  let decided :=
    if action = segmentConfirm ∨ action = segmentDismiss then kept ++ [⟨segment, action⟩] else kept
  decided.insertionSort fun first second => first.segment ≤ second.segment

end ScuffedCrew.Storage
