import ScuffedCrew.RelayPolicy.WritePolicy

/-!
# Who writes what a group reads

The write policy looks at the first `h` tag as it is written; the gate at the
first one that is not blank, trimmed.  Where the channels' ids are neither
padded nor blank the two agree, so the author of a delivered group event is one
of the group's writers.  The metadata of a group is delivered by its `d` tag,
which the write policy does not look at.
-/

namespace ScuffedCrew.RelayPolicy

open Rust

def WritesGroup (rows : Rows) (pubkey id : Text) : Prop :=
  ∃ writers, (loadGroupWriters rows).lookup id = some writers ∧ pubkey ∈ writers

/-- The gate delivers the stored event to a member because of a group. -/
def DeliveredFor (rows : Rows) (event : EventInfo) (authed id : Text) : Prop :=
  event.kind ≠ giftWrapKind ∧ event.view.sharedGroup = some id ∧
    allowEvent (some authed) event.view (loadReadDirectory rows) = .ok ()

/-- The ids of the channels are neither padded nor blank. -/
def Rows.PlainIds (rows : Rows) : Prop :=
  ∀ channel ∈ rows.channels, channel.groupId.trim = channel.groupId ∧ channel.groupId ≠ []

variable {rows : Rows} {engine : PolicyEngine} {now : Instant} {event : EventInfo}
  {authed id written : Text}

/-! ## The two readings of the `h` tags -/

theorem EventInfo.groupId_eq_head? :
    event.groupId = (event.view.tagValues "h".toList).head? := by
  rw [EventInfo.groupId, ← List.head?_filterMap]
  apply congrArg List.head?
  rfl

/-- The first tag of the write policy is that of the gate, unless it is blank. -/
theorem groupId_view (found : event.groupId = some written) (nonblank : written.trim ≠ []) :
    event.view.groupId = some written.trim := by
  rw [EventInfo.groupId_eq_head?] at found
  rw [EventView.groupId, EventView.firstTag]
  generalize event.view.tagValues "h".toList = values at found
  cases values with
  | nil => cases found
  | cons value rest =>
      rcases Option.some.inj found with rfl
      simp [nonblank]

/-- An event the gate files under a group has an `h` tag the write policy checks. -/
theorem exists_groupId (shared : event.view.groupId = some id) :
    ∃ written, event.groupId = some written := by
  rw [EventView.groupId, EventView.firstTag] at shared
  rw [EventInfo.groupId_eq_head?]
  generalize event.view.tagValues "h".toList = values at shared
  cases values with
  | nil => cases shared
  | cons value rest => exact ⟨value, rfl⟩

/-! ## The two maps -/

/-- A group that is delivered is known to the gate. -/
theorem DeliveredFor.exists_rule (delivered : DeliveredFor rows event authed id) :
    ∃ rule, (loadReadDirectory rows).groups.lookup id = some rule := by
  rcases delivered with ⟨kind, shared, allowed⟩
  rcases allowEvent_eq_ok_iff.mp allowed with ⟨pubkey, member, -, -, mayRead⟩
  rcases mayRead with ⟨wrap, -⟩ | ⟨-, other, found, rule, known, -⟩
  · exact absurd wrap kind
  · rcases Option.some.inj (Eq.trans (Eq.symm shared) found) with rfl
    exact ⟨rule, known⟩

theorem WritesGroup.nonblank (plain : rows.PlainIds) {pubkey : Text}
    (writes : WritesGroup rows pubkey id) : id.trim = id ∧ id ≠ [] := by
  rcases writes with ⟨writers, found, -⟩
  rcases exists_channel_of_writers found with ⟨channel, channel_mem, -, rfl, -⟩
  exact plain channel channel_mem

/-- The writers of a group whose rule keeps it for officers are officers of its team. -/
theorem WritesGroup.officerOn (plain : rows.PlainIds) {pubkey : Text} {rule : GroupAcl}
    (writes : WritesGroup rows pubkey id)
    (known : (loadReadDirectory rows).groups.lookup id = some rule)
    (officers : rule.officerOnly = true) : rows.OfficerOn rule.teamId pubkey := by
  rcases writes with ⟨writers, found, writer⟩
  rcases exists_channel_of_writers found with ⟨channel, channel_mem, -, rfl, rfl⟩
  rcases exists_channel_of_directory known with ⟨ruled, ruled_mem, same_id, rfl⟩
  rw [(plain ruled ruled_mem).1] at same_id
  have same : ruled = channel :=
    List.inj_on_of_nodup_map rows.groupIds_nodup ruled_mem channel_mem same_id
  subst same
  exact officerOn_of_mem_writers (by simpa [TeamChannel.acl] using officers) writer

/-! ## The author of a delivered event -/

def captainRow : MemberRow :=
  ⟨"captain".toList, true, some (List.replicate 64 'c'), .officer⟩

def plainRow : MemberRow := ⟨"plain".toList, true, some (List.replicate 64 'a'), .member⟩

def officerRows : Rows where
  members := [captainRow, plainRow]
  roster := [⟨captainRow.id, "team".toList, true⟩, ⟨plainRow.id, "team".toList, true⟩]
  channels := [⟨"team".toList, "officers".toList, .officer, true⟩]
  banned := []
  groupIds_nodup := by simp

def officerEngine : PolicyEngine :=
  ((PolicyEngine.new .default).updateAllowlist (loadPubkeyAllowlist officerRows)).updateGroupMembers
    (loadGroupWriters officerRows)

def officerChat : EventInfo :=
  ⟨List.replicate 64 'c', 9, [["h".toList, "officers".toList]], none⟩

/-- The metadata of the officers' group, written by a member who is no officer. -/
def plainMetadata : EventInfo :=
  ⟨List.replicate 64 'a', 39000, [["d".toList, "officers".toList]], none⟩

/-- A second channel whose id is that of the officers' with padding. -/
def paddedRows : Rows where
  members := officerRows.members
  roster := officerRows.roster
  channels :=
    [⟨"team".toList, " officers".toList, .publicChat, true⟩,
      ⟨"team".toList, "officers".toList, .officer, true⟩]
  banned := []
  groupIds_nodup := by simp

def paddedChat : EventInfo :=
  ⟨List.replicate 64 'a', 9, [["h".toList, " officers".toList]], none⟩

/-- Only the writers of a group write what is delivered for it, of the events that are covered. -/
def OnlyWritersAuthor (Covers : Rows → EventInfo → Prop) : Prop :=
  ∀ (rows : Rows) (engine : PolicyEngine) (now : Instant) (event : EventInfo) (authed id : Text),
    Covers rows event → engine.groupMembers = loadGroupWriters rows →
      engine.config.enforceGroupMembership = true →
        (engine.evaluate now event).1 = .accept → DeliveredFor rows event authed id →
          WritesGroup rows event.pubkey id

end ScuffedCrew.RelayPolicy
