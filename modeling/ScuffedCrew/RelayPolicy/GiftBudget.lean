import ScuffedCrew.RelayPolicy.Directory
import ScuffedCrew.Rust.Json
import ScuffedCrew.Rust.Numeric

/-!
# The gift-wrap budget

How many wraps a sender may send to a recipient within a window.
-/

namespace ScuffedCrew.RelayPolicy

open Rust

structure GiftBudget where
  limit : ℕ
  window : Duration
  buckets : HashMap Text (List Instant)

/-- The keys the `p` tags of a published event name. -/
def recipientPubkeys {φ : Type} (frame : Json φ) : List Text :=
  match ((frame.item 1).bind (·.get "tags".toList)).bind Json.asArray with
  | none => []
  | some tags =>
      tags.filterMap fun tag =>
        if (tag.item 0).bind Json.asStr = some "p".toList then
          (((tag.item 1).bind Json.asStr).map normalised).filter isPubkey
        else none

namespace GiftBudget

def new (limit windowSecs : ℕ) : GiftBudget := ⟨limit, Duration.fromSecs windowSecs, ∅⟩

def giftKey (authed recipient : Text) : Text := "gift:".toList ++ authed ++ ':' :: recipient

variable (budget : GiftBudget) (now : Instant)

def recent (stamps : List Instant) : List Instant :=
  stamps.filter fun stamp => now - stamp < budget.window

def count (key : Text) : ℕ := (budget.recent now ((budget.buckets.lookup key).getD [])).length

def push (key : Text) : GiftBudget :=
  { budget with
    buckets := budget.buckets.insert key
      (budget.recent now ((budget.buckets.lookup key).getD []) ++ [now]) }

/-- One wrap is charged to every recipient, or to none. -/
def allow {φ : Type} (authed : Text) (frame : Json φ) : Bool × GiftBudget :=
  let recipients := recipientPubkeys frame
  if recipients.isEmpty then (true, budget)
  else
    let keys := recipients.map (giftKey (normalised authed))
    if keys.any fun key => budget.limit ≤ budget.count now key then (false, budget)
    else (true, keys.foldl (fun budget key => budget.push now key) budget)

end GiftBudget

end ScuffedCrew.RelayPolicy
