import ScuffedCrew.Members.Policy
import ScuffedCrew.RelayPolicy.ReadPolicy

/-!
# Loading the two maps

The read directory and the writers of the groups are loaded from the same rows.
The directory keeps the channels that are not active, and trims their group ids;
the writers are those of the active channels, under the ids as they are stored.
-/

namespace ScuffedCrew.RelayPolicy

open Rust

inductive GroupType
  | publicChat
  | officer
  deriving DecidableEq

structure MemberRow where
  id : Text
  isActive : Bool
  nostrPubkey : Option Text
  orgRole : Members.OrgRole

structure RosterEdge where
  memberId : Text
  teamId : Text
  isActive : Bool

structure TeamChannel where
  teamId : Text
  groupId : Text
  groupType : GroupType
  isActive : Bool

/-- The rows of `member`, `plays_on` and `team_channel`, and the members with a ban in force. -/
structure Rows where
  members : List MemberRow
  roster : List RosterEdge
  channels : List TeamChannel
  banned : List Text
  /-- `team_channel_group_idx`. -/
  groupIds_nodup : (channels.map TeamChannel.groupId).Nodup

namespace Rows

variable (rows : Rows)

def listNostrIdentities : List MemberRow :=
  (rows.members.filter fun member => member.isActive && member.nostrPubkey.isSome).take 2000

def listActiveRosterPairs : List (Text × Text) :=
  (rows.roster.filter fun edge =>
    edge.isActive &&
      (rows.members.find? fun member => member.id == edge.memberId).any MemberRow.isActive &&
      !rows.banned.contains edge.memberId).map fun edge => (edge.memberId, edge.teamId)

end Rows

/-! ## The read directory -/

def teamsByMember (pairs : List (Text × Text)) : HashMap Text (Finset Text) :=
  pairs.foldl (fun teams (memberId, teamId) =>
    teams.insert memberId (insert teamId ((teams.lookup memberId).getD ∅))) ∅

/-- A member takes its teams out of the map. -/
def memberAcls : HashMap Text (Finset Text) → List MemberRow → List MemberAcl
  | _, [] => []
  | teams, member :: rest =>
      match member.nostrPubkey with
      | none => memberAcls teams rest
      | some pubkey =>
          ⟨pubkey, member.id, member.orgRole.canAccessOfficerChannel,
              (teams.lookup member.id).getD ∅⟩ ::
            memberAcls (teams.erase member.id) rest

def TeamChannel.acl (channel : TeamChannel) : Text × GroupAcl :=
  (channel.groupId, ⟨channel.teamId, decide (channel.groupType = .officer)⟩)

def loadReadDirectory (rows : Rows) : ReadDirectory :=
  .fromParts (memberAcls (teamsByMember rows.listActiveRosterPairs) rows.listNostrIdentities)
    (rows.channels.map TeamChannel.acl)

/-! ## The writers -/

structure TeamWriters where
  roster : Finset Text
  officers : Finset Text

/-- The key of a member, and whether it may open officer chat. -/
def fileKey (keys : HashMap Text (Text × Bool)) (member : MemberRow) :
    HashMap Text (Text × Bool) :=
  match member.nostrPubkey with
  | none => keys
  | some pubkey =>
      let pubkey := pubkey.toAsciiLowercase
      if isPubkey pubkey then
        keys.insert member.id (pubkey, member.orgRole.canAccessOfficerChannel)
      else keys

def pubkeyByMember (members : List MemberRow) : HashMap Text (Text × Bool) :=
  members.foldl fileKey ∅

def fileWriter (keys : HashMap Text (Text × Bool)) (teams : HashMap Text TeamWriters)
    (pair : Text × Text) : HashMap Text TeamWriters :=
  match keys.lookup pair.1 with
  | none => teams
  | some (pubkey, officer) =>
      let team := (teams.lookup pair.2).getD ⟨∅, ∅⟩
      teams.insert pair.2
        { roster := insert pubkey team.roster
          officers := if officer then insert pubkey team.officers else team.officers }

def writersByTeam (keys : HashMap Text (Text × Bool)) (pairs : List (Text × Text)) :
    HashMap Text TeamWriters :=
  pairs.foldl (fileWriter keys) ∅

def fileGroup (teams : HashMap Text TeamWriters) (groups : HashMap Text (Finset Text))
    (channel : TeamChannel) : HashMap Text (Finset Text) :=
  if !channel.isActive then groups
  else
    match teams.lookup channel.teamId with
    | none => groups.insert channel.groupId ∅
    | some team =>
        groups.insert channel.groupId
          (if channel.groupType = .officer then team.officers else team.roster)

def loadGroupWriters (rows : Rows) : HashMap Text (Finset Text) :=
  let teams := writersByTeam (pubkeyByMember rows.listNostrIdentities) rows.listActiveRosterPairs
  rows.channels.foldl (fileGroup teams) ∅

/-! ## What is filed comes from a row -/

variable {rows : Rows} {id : Text}

/-- The entries of a folded map come from the items that filed them. -/
theorem exists_mem_of_lookup_foldl {κ α β : Type} [DecidableEq κ]
    {file : HashMap κ α → β → HashMap κ α} {items : List β} {key : κ} {value : α}
    (Filed : β → κ → α → Prop)
    (files : ∀ map item key value, (file map item).lookup key = some value →
      map.lookup key = some value ∨ Filed item key value)
    (found : (items.foldl file ∅).lookup key = some value) :
    ∃ item ∈ items, Filed item key value := by
  induction items using List.reverseRecOn with
  | nil => simp at found
  | append_singleton items item ih =>
      rw [List.foldl_append, List.foldl_cons, List.foldl_nil] at found
      rcases files _ _ _ _ found with before | filed
      · rcases ih before with ⟨earlier, earlier_mem, filed⟩
        exact ⟨earlier, by simp [earlier_mem], filed⟩
      · exact ⟨item, by simp, filed⟩

/-- A group the gate knows is a channel's, under its trimmed id. -/
theorem exists_channel_of_directory {rule : GroupAcl}
    (found : (loadReadDirectory rows).groups.lookup id = some rule) :
    ∃ channel ∈ rows.channels, channel.groupId.trim = id ∧ channel.acl.2 = rule := by
  have filed : ∃ entry ∈ rows.channels.map TeamChannel.acl,
      entry.1.trim = id ∧ entry.2 = rule := by
    apply exists_mem_of_lookup_foldl (fun entry id rule => entry.1.trim = id ∧ entry.2 = rule)
      ?_ found
    intro groups entry id rule found
    rw [ReadDirectory.insertGroup] at found
    split at found
    next =>
      rw [HashMap.lookup_insert'] at found
      split at found
      next same => exact .inr ⟨Eq.symm same, Option.some.inj found⟩
      next => exact .inl found
    next => exact .inl found
  rcases filed with ⟨entry, entry_mem, same_id, same_rule⟩
  rcases List.mem_map.mp entry_mem with ⟨channel, channel_mem, rfl⟩
  exact ⟨channel, channel_mem, same_id, same_rule⟩

/-- The writers of a channel. -/
def TeamChannel.writers (rows : Rows) (channel : TeamChannel) : Finset Text :=
  match (writersByTeam (pubkeyByMember rows.listNostrIdentities)
    rows.listActiveRosterPairs).lookup channel.teamId with
  | none => ∅
  | some team => if channel.groupType = .officer then team.officers else team.roster

/-- A writer set is that of an active channel with the id as it is stored. -/
theorem exists_channel_of_writers {writers : Finset Text}
    (found : (loadGroupWriters rows).lookup id = some writers) :
    ∃ channel ∈ rows.channels, channel.isActive = true ∧ channel.groupId = id ∧
      channel.writers rows = writers := by
  refine exists_mem_of_lookup_foldl
    (fun channel id writers => channel.isActive = true ∧ channel.groupId = id ∧
      channel.writers rows = writers) ?_ found
  intro groups channel id writers found
  rw [fileGroup] at found
  split at found
  next => exact .inl found
  next active =>
    have active : channel.isActive = true := by simpa using active
    have filed : (groups.insert channel.groupId (channel.writers rows)).lookup id =
        some writers := by
      rw [TeamChannel.writers]
      cases team : (writersByTeam (pubkeyByMember rows.listNostrIdentities)
          rows.listActiveRosterPairs).lookup channel.teamId with
      | none => simpa only [team] using found
      | some team' => simpa only [team] using found
    rw [HashMap.lookup_insert'] at filed
    split at filed
    next same => exact .inr ⟨active, Eq.symm same, Option.some.inj filed⟩
    next => exact .inl filed

/-- A key of an active officer who is on the roster of a team. -/
def Rows.OfficerOn (rows : Rows) (teamId pubkey : Text) : Prop :=
  ∃ member ∈ rows.listNostrIdentities, member.orgRole.canAccessOfficerChannel = true ∧
    member.nostrPubkey.map Text.toAsciiLowercase = some pubkey ∧
    (member.id, teamId) ∈ rows.listActiveRosterPairs

theorem exists_member_of_pubkeyByMember {members : List MemberRow} {entry : Text × Bool}
    (found : (pubkeyByMember members).lookup id = some entry) :
    ∃ member ∈ members, member.id = id ∧
      member.nostrPubkey.map Text.toAsciiLowercase = some entry.1 ∧
      member.orgRole.canAccessOfficerChannel = entry.2 := by
  refine exists_mem_of_lookup_foldl
    (fun member id entry => member.id = id ∧
      member.nostrPubkey.map Text.toAsciiLowercase = some entry.1 ∧
      member.orgRole.canAccessOfficerChannel = entry.2) ?_ found
  intro keys member id entry found
  rw [fileKey] at found
  split at found
  next => exact .inl found
  next pubkey has =>
    simp only at found
    split at found
    next =>
      rw [HashMap.lookup_insert'] at found
      split at found
      next same =>
        rcases Option.some.inj found with rfl
        exact .inr ⟨same.symm, by simp [has], rfl⟩
      next => exact .inl found
    next => exact .inl found

/-- The officers of a team are officers on its roster. -/
theorem officerOn_of_mem_officers {keys : HashMap Text (Text × Bool)}
    {pairs : List (Text × Text)} {teamId pubkey : Text} {team : TeamWriters}
    (found : (writersByTeam keys pairs).lookup teamId = some team)
    (officer : pubkey ∈ team.officers) :
    ∃ memberId, (memberId, teamId) ∈ pairs ∧ keys.lookup memberId = some (pubkey, true) := by
  induction pairs using List.reverseRecOn generalizing team with
  | nil => simp [writersByTeam] at found
  | append_singleton pairs pair ih =>
      have earlier : ∀ team, (writersByTeam keys pairs).lookup teamId = some team →
          pubkey ∈ team.officers → ∃ memberId, (memberId, teamId) ∈ pairs ++ [pair] ∧
            keys.lookup memberId = some (pubkey, true) := by
        intro team found officer
        rcases ih found officer with ⟨memberId, pair_mem, key⟩
        exact ⟨memberId, by simp [pair_mem], key⟩
      rw [writersByTeam, List.foldl_append, List.foldl_cons, List.foldl_nil, fileWriter] at found
      split at found
      next => exact earlier team found officer
      next filed isOfficer key =>
        rw [HashMap.lookup_insert'] at found
        split at found
        next same =>
          rcases Option.some.inj found with rfl
          have before : pubkey ∈ (((writersByTeam keys pairs).lookup teamId).getD ⟨∅, ∅⟩).officers →
              ∃ memberId, (memberId, teamId) ∈ pairs ++ [pair] ∧
                keys.lookup memberId = some (pubkey, true) := by
            intro officer
            cases team : (writersByTeam keys pairs).lookup teamId with
            | none => simp [team] at officer
            | some team' => exact earlier team' team (by simpa [team] using officer)
          rw [same] at before
          cases isOfficer with
          | false => exact same ▸ before officer
          | true =>
              rcases Finset.mem_insert.mp officer with rfl | officer
              · exact ⟨pair.1, by simp [same], key⟩
              · exact same ▸ before officer
        next => exact earlier team found officer

/-- The writers of an officer channel are officers on the team's roster. -/
theorem officerOn_of_mem_writers {channel : TeamChannel} {pubkey : Text}
    (officers : channel.groupType = .officer) (writer : pubkey ∈ channel.writers rows) :
    rows.OfficerOn channel.teamId pubkey := by
  rw [TeamChannel.writers] at writer
  split at writer
  next => simp at writer
  next team found =>
    rw [if_pos officers] at writer
    rcases officerOn_of_mem_officers found writer with ⟨memberId, pair_mem, key⟩
    rcases exists_member_of_pubkeyByMember key with ⟨member, member_mem, rfl, pubkey, officer⟩
    exact ⟨member, member_mem, officer, pubkey, pair_mem⟩

end ScuffedCrew.RelayPolicy
