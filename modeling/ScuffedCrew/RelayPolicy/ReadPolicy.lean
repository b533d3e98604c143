import ScuffedCrew.RelayPolicy.Directory
import ScuffedCrew.Rust.Json

/-!
# The read policy

Who may receive a stored event.  `MayRead` is the rule itself, and `allow_event`
decides it.
-/

namespace ScuffedCrew.RelayPolicy

open Rust

/-- NIP-59. -/
def giftWrapKind : ℕ := 1059

/-- NIP-04. -/
def plainDmKind : ℕ := 4

def groupMetadataKindMin : ℕ := 39000

def groupMetadataKindMax : ℕ := 39003

structure EventView where
  pubkey : Text
  kind : ℕ
  tags : List (List Text)
  deriving DecidableEq

namespace EventView

/-- Parts that are no strings, and tags that are no arrays, are skipped. -/
def fromJson {φ : Type} (value : Json φ) : Option EventView := do
  let pubkey ← (value.get "pubkey".toList).bind Json.asStr
  let kind ← (value.get "kind".toList).bind Json.asU64
  let tags := (((value.get "tags".toList).bind Json.asArray).map fun tags =>
    tags.filterMap fun tag => tag.asArray.map (·.filterMap Json.asStr)).getD []
  some ⟨normalised pubkey, kind, tags⟩

variable (event : EventView)

def tagValues (name : Text) : List Text :=
  event.tags.filterMap fun tag => if tag.head? = some name then tag[1]? else none

def firstTag (name : Text) : Option Text :=
  ((event.tagValues name).map Text.trim).find? (!·.isEmpty)

def groupId : Option Text := event.firstTag "h".toList

def addressId : Option Text := event.firstTag "d".toList

def pTagMatches (pubkey : Text) : Bool :=
  (event.tagValues "p".toList).any fun value => value.trim.eqIgnoreAsciiCase pubkey

end EventView

inductive ReadDeny
  | signedOut
  | notMember
  | giftWrapNotAddressed
  | teamChat
  | officerChat
  | notShared
  deriving DecidableEq

def isGroupMetadata (kind : ℕ) : Bool :=
  groupMetadataKindMin ≤ kind && kind ≤ groupMetadataKindMax

def allowGroup (reader : MemberAcl) (groupId : Text) (directory : ReadDirectory) :
    Except ReadDeny Unit :=
  match directory.groups.lookup groupId with
  | none => .error .notShared
  | some group =>
      let onTeam := decide (group.teamId ∈ reader.teams)
      if group.officerOnly then
        if reader.officer && onTeam then .ok () else .error .officerChat
      else if onTeam then .ok ()
      else .error .teamChat

def allowEvent (authedPubkey : Option Text) (event : EventView) (directory : ReadDirectory) :
    Except ReadDeny Unit :=
  match (authedPubkey.map Text.trim).filter (!·.isEmpty) with
  | none => .error .signedOut
  | some pubkey =>
      match directory.reader pubkey with
      | none => .error .notMember
      | some reader =>
          if event.kind = giftWrapKind then
            if event.pTagMatches reader.pubkey then .ok () else .error .giftWrapNotAddressed
          else if isGroupMetadata event.kind then
            match event.addressId with
            | none => .error .notShared
            | some groupId => allowGroup reader groupId directory
          else
            match event.groupId with
            | some groupId => allowGroup reader groupId directory
            | none => .error .notShared

/-! ## The rule -/

/-- The group an event is shared with: its metadata names it in a `d` tag. -/
def EventView.sharedGroup (event : EventView) : Option Text :=
  if isGroupMetadata event.kind then event.addressId else event.groupId

/-- A team member reads the groups of the team, those for officers only as an officer. -/
def ReadsGroup (directory : ReadDirectory) (member : MemberAcl) (id : Text) : Prop :=
  ∃ group, directory.groups.lookup id = some group ∧ group.teamId ∈ member.teams ∧
    (group.officerOnly = true → member.officer = true)

inductive MayRead (directory : ReadDirectory) (member : MemberAcl) (event : EventView) : Prop
  | giftWrap (kind : event.kind = giftWrapKind)
      (addressed : ∃ value ∈ event.tagValues "p".toList,
        value.trim.toAsciiLowercase = member.pubkey.toAsciiLowercase)
  | group (kind : event.kind ≠ giftWrapKind) (id : Text) (shared : event.sharedGroup = some id)
      (reads : ReadsGroup directory member id)

variable {directory : ReadDirectory} {member : MemberAcl} {event : EventView} {id : Text}

theorem allowGroup_eq_ok_iff :
    allowGroup member id directory = .ok () ↔ ReadsGroup directory member id := by
  rw [allowGroup, ReadsGroup]
  cases directory.groups.lookup id with
  | none => simp
  | some group => cases officers : group.officerOnly <;> simp [officers, and_comm]

theorem pTagMatches_iff {pubkey : Text} : event.pTagMatches pubkey = true ↔
    ∃ value ∈ event.tagValues "p".toList,
      value.trim.toAsciiLowercase = pubkey.toAsciiLowercase := by
  simp [EventView.pTagMatches, Text.eqIgnoreAsciiCase]

theorem mayRead_giftWrap_iff (kind : event.kind = giftWrapKind) :
    MayRead directory member event ↔ event.pTagMatches member.pubkey = true := by
  rw [pTagMatches_iff]
  constructor
  · rintro (⟨-, addressed⟩ | ⟨other, -, -, -⟩)
    · exact addressed
    · exact absurd kind other
  · exact .giftWrap kind

theorem mayRead_group_iff (kind : event.kind ≠ giftWrapKind) :
    MayRead directory member event ↔
      ∃ id, event.sharedGroup = some id ∧ allowGroup member id directory = .ok () := by
  simp only [allowGroup_eq_ok_iff]
  constructor
  · rintro (⟨wrap, -⟩ | ⟨-, id, shared, reads⟩)
    · exact absurd wrap kind
    · exact ⟨id, shared, reads⟩
  · rintro ⟨id, shared, reads⟩
    exact .group kind id shared reads

/-- `allow_event` lets exactly the members through that may read the event. -/
theorem allowEvent_eq_ok_iff {authedPubkey : Option Text} :
    allowEvent authedPubkey event directory = .ok () ↔
      ∃ pubkey member, authedPubkey = some pubkey ∧ directory.reader pubkey = some member ∧
        MayRead directory member event := by
  cases authedPubkey with
  | none => simp [allowEvent]
  | some pubkey =>
      have trimmed : directory.reader pubkey.trim = directory.reader pubkey := by
        rw [ReadDirectory.reader, normalised, Text.trim_trim]
        rfl
      have only : (∃ key member, some pubkey = some key ∧ directory.reader key = some member ∧
          MayRead directory member event) ↔
            ∃ member, directory.reader pubkey = some member ∧ MayRead directory member event := by
        simp
      rw [only]
      by_cases empty : pubkey.trim = []
      · have nobody : directory.reader pubkey = none := by
          rw [← trimmed, empty, directory.reader_nil]
        simp [allowEvent, empty, Option.filter, nobody]
      · have kept : ((some pubkey).map Text.trim).filter (!·.isEmpty) = some pubkey.trim := by
          simp [Option.filter, empty]
        simp only [allowEvent, kept, trimmed]
        cases directory.reader pubkey with
        | none => simp
        | some member =>
            by_cases wrap : event.kind = giftWrapKind
            · simp [wrap, mayRead_giftWrap_iff wrap]
            · simp only [wrap, if_false, Option.some.injEq, exists_eq_left', mayRead_group_iff wrap,
                EventView.sharedGroup]
              split
              · cases event.addressId <;> simp
              · cases event.groupId <;> simp

end ScuffedCrew.RelayPolicy
