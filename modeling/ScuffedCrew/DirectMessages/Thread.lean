import Mathlib.Algebra.Order.Ring.Nat
import Mathlib.Data.Char
import Mathlib.Data.List.Lex
import Mathlib.Order.Lattice
import ScuffedCrew.Database.Indexed
import ScuffedCrew.Database.Paging
import ScuffedCrew.Rust.Text

/-!
# Direct messages

Delivered and sent messages, one row for each gift wrap, and the thread of two
keys, newest first.  The body is sealed for storage when there is a key for it.
-/

namespace ScuffedCrew.DirectMessages

open Rust Database

universe u

inductive DbError
  | config (message : Text)
  | crypto
  | surreal
  deriving DecidableEq

/-- `CryptoService`, with the JSON text of its blobs: what was encrypted is decrypted under the
same additional data. -/
structure CryptoService where
  encrypt : Text → Text → Except DbError Text
  decrypt : Text → Text → Except DbError Text
  decrypts : ∀ {plaintext aad blob},
    encrypt plaintext aad = .ok blob → decrypt blob aad = .ok plaintext

structure Site where
  crypto : Option CryptoService
  production : Bool

def dmEncPrefix : Text := "enc1:".toList

/-- `aad::dm_content`. -/
def dmContentAad (giftWrapId convKey : Text) : Text :=
  "dm|gw:".toList ++ giftWrapId ++ "|ck:".toList ++ convKey

def conversationKey (pubkeyA pubkeyB : Text) : Text :=
  if pubkeyA ≤ pubkeyB then pubkeyA ++ [','] ++ pubkeyB else pubkeyB ++ [','] ++ pubkeyA

theorem conversationKey_comm (pubkeyA pubkeyB : Text) :
    conversationKey pubkeyA pubkeyB = conversationKey pubkeyB pubkeyA := by
  unfold conversationKey
  rcases lt_trichotomy pubkeyA pubkeyB with before | rfl | after
  · simp [before.le, not_le_of_gt before]
  · rfl
  · simp [after.le, not_le_of_gt after]

def sealDmContent (site : Site) (plaintext giftWrapId convKey : Text) : Except DbError Text :=
  match site.crypto with
  | some crypto =>
      match crypto.encrypt plaintext (dmContentAad giftWrapId convKey) with
      | .ok json => .ok (dmEncPrefix ++ json)
      | .error error => .error error
  | none =>
      if site.production then
        .error (.config ("Refusing plaintext DM storage when PRODUCTION is set " ++
          "(require ENCRYPTION_KEY)").toList)
      else .ok plaintext

def openDmContent (site : Site) (stored giftWrapId convKey : Text) : Except DbError Text :=
  if dmEncPrefix.isPrefixOf stored then
    match site.crypto with
    | none =>
        .error (.config ("DM content is encrypted but CryptoService is not configured " ++
          "(set ENCRYPTION_KEY)").toList)
    | some crypto =>
        crypto.decrypt (stored.drop dmEncPrefix.length) (dmContentAad giftWrapId convKey)
  else if site.production then
    .error (.config ("Refusing plaintext DM content when PRODUCTION is set " ++
      "(data must be encrypted)").toList)
  else .ok stored

/-- A message, with its content as it is stored in the rows and in the clear in what is returned. -/
structure DmMessage (Time : Type u) where
  giftWrapId : Text
  senderPubkey : Text
  recipientPubkey : Text
  conversationKey : Text
  content : Text
  replyToEventId : Option Text
  createdAt : Time
  deriving DecidableEq

variable {Time : Type u} (site : Site)

def dbToDm (row : DmMessage Time) : Except DbError (DmMessage Time) :=
  match openDmContent site row.content row.giftWrapId row.conversationKey with
  | .ok content => .ok { row with content }
  | .error error => .error error

/-- `dm_message`, with its index on the gift wrap. -/
abbrev DmTable (Time : Type u) := Indexed (@DmMessage.giftWrapId Time)

/-- What `insert_dm_message` is called with. -/
structure Delivery (Time : Type u) where
  giftWrapId : Text
  senderPubkey : Text
  recipientPubkey : Text
  content : Text
  replyToEventId : Option Text
  createdAt : Time

namespace Delivery

variable (delivery : Delivery Time)

def key : Text := conversationKey delivery.senderPubkey delivery.recipientPubkey

/-- The message with the given content. -/
def message (content : Text) : DmMessage Time where
  giftWrapId := delivery.giftWrapId
  senderPubkey := delivery.senderPubkey
  recipientPubkey := delivery.recipientPubkey
  conversationKey := delivery.key
  content
  replyToEventId := delivery.replyToEventId
  createdAt := delivery.createdAt

end Delivery

def DmTable.empty : DmTable Time := ⟨[], by simp⟩

def insertDmMessage (table : DmTable Time) (delivery : Delivery Time) :
    Except DbError (DmMessage Time × Bool) × DmTable Time :=
  match sealDmContent site delivery.content delivery.giftWrapId delivery.key with
  | .error error => (.error error, table)
  | .ok body =>
      match table.rows.find? fun row => row.giftWrapId == delivery.giftWrapId with
      | some found => ((dbToDm site found).map fun stored => (stored, false), table)
      | none =>
          match table.create (delivery.message body) with
          | none => (.error .surreal, table)
          | some after =>
              ((dbToDm site (delivery.message body)).map fun stored => (stored, true), after)

/-- The table after calls of `insert_dm_message`. -/
def tableAfter (deliveries : List (Delivery Time)) : DmTable Time :=
  deliveries.foldl (fun table delivery => (insertDmMessage site table delivery).2) .empty

/-- `WHERE conversation_key = $conv`. -/
def conversation (table : DmTable Time) (mePubkey peerPubkey : Text) : List (DmMessage Time) :=
  table.rows.filter fun row => row.conversationKey == conversationKey mePubkey peerPubkey

section Reading

variable [LinearOrder Time] (engine : NewestFirst (@DmMessage.createdAt Time))
  (table : DmTable Time) (mePubkey peerPubkey : Text) (limit : ℕ)

def listDmThread (beforeTs : Option Time) : Except DbError (List (DmMessage Time)) :=
  (engine.page limit (conversation table mePubkey peerPubkey) beforeTs).mapM (dbToDm site)

/-- The thread page after page, each after the `created_at` of the last message of the page
before, up to the first empty page. -/
def readThread : ℕ → Option Time → Option (Except DbError (List (DmMessage Time)))
  | 0, _ => none
  | fuel + 1, beforeTs =>
      match listDmThread site engine table mePubkey peerPubkey limit beforeTs with
      | .error error => some (.error error)
      | .ok page =>
          match page.getLast? with
          | none => some (.ok [])
          | some last =>
              (readThread fuel (some last.createdAt)).map fun answer =>
                answer.map (page ++ ·)

/-- One page for each message and the empty one suffice. -/
def readWholeThread : Option (Except DbError (List (DmMessage Time))) :=
  readThread site engine table mePubkey peerPubkey limit
    ((conversation table mePubkey peerPubkey).length + 1) none

end Reading

end ScuffedCrew.DirectMessages
