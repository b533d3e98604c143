import ScuffedCrew.Sync.Pass

/-!
# No update lost between the store and the upload

A row that a pass marks synced is one whose contents it has uploaded, because a
write that changes the contents re-queues the row: the new revision makes the
compare-and-swap of an earlier claim miss.

Two statements write an uploaded column without a new revision: the one that
drops suspect fields, and the timeline stamp whose own read saw no change of
hero.  Where such a write lands on a row that is queued and not claimed at its
revision, it is uploaded later; on any other row it is lost.  The same holds of
a row handed over as synced, as a copy of a store hands its rows over.
-/

namespace ScuffedCrew.Sync

open Rust Parse Database StateMachine Storage

/-- Every synced row whose contents produce an entry has that entry uploaded last. -/
def InStep (state : Syncing) : Prop :=
  ∀ id row, state.store.personalMatch.get? id = some row → row.synced = true →
    ∀ entry, entryOf row = some entry → state.uploaded id = some entry

/-! ## Writes that skip the queue -/

def changesSuspects (row : PersonalMatch) (suspectFields : List Text) : Bool :=
  (entryOf row).isSome && uploadSuspectFields suspectFields != uploadSuspectFields row.suspectFields

def changesHero (row : PersonalMatch) (heroesPlayed : List HeroSegment) : Bool :=
  let probe := { row with heroesPlayed }
  (entryOf probe).isSome &&
    (row.displayHero != probe.displayHero || row.displayRole != probe.displayRole)

def settled (pass : SyncPass) (id : RecordId) (row : PersonalMatch) : Bool :=
  row.synced || pass.claims.any fun claim => claim.id == id && claim.syncRev == row.syncRev

/-- The statement changes what a settled row sends and leaves its revision alone, or it creates
a row as synced. -/
def statementSkips (pass : SyncPass) (rows : Table PersonalMatch) : Statement → Bool
  | .createMatch row => row.synced && (entryOf row).isSome
  | .rewrite (.stampSuspects id suspectFields) =>
      (rows.get? id).any fun row => settled pass id row && changesSuspects row suspectFields
  | .rewrite (.stampTimeline id heroesPlayed false) =>
      (rows.get? id).any fun row => settled pass id row && changesHero row heroesPlayed
  | _ => false

def skipsQueue (step : SyncStep) : Bool :=
  match step.event with
  | .call turn =>
      match step.before.pool.processes[turn.process]?.bind Call.statement, turn.choice with
      | some statement, .applied =>
          statementSkips step.before.pass step.before.store.personalMatch statement
      | _, _ => false
  | _ => false

/-! ## What a call does to a row -/

/-- A row after a step that does not skip the queue: it is re-queued, or it has the same revision
and, while it is settled, no other entry. -/
def Follows (pass : SyncPass) (id : RecordId) (old new : PersonalMatch) : Prop :=
  (new.synced = false ∧ new.syncRev = old.syncRev + 1) ∨
    (new.synced = old.synced ∧ new.syncRev = old.syncRev ∧
      (settled pass id old = true → ∀ entry, entryOf new = some entry → entryOf old = some entry))

/-- A new row waits for its first upload, or produces no entry. -/
def Waits (row : PersonalMatch) : Prop := (row.synced && (entryOf row).isSome) = false

/-- The rows after such a step: a new row waits, every other one follows the old row. -/
structure FollowsAll (pass : SyncPass) (rows rows' : Table PersonalMatch) : Prop where
  nextId : rows.nextId ≤ rows'.nextId
  follows : ∀ id new, rows'.get? id = some new →
    (rows.nextId ≤ id ∧ Waits new) ∨ ∃ old, rows.get? id = some old ∧ Follows pass id old new

theorem Follows.refl (pass : SyncPass) (id : RecordId) (row : PersonalMatch) :
    Follows pass id row row :=
  .inr ⟨rfl, rfl, fun _ _ same => same⟩

theorem FollowsAll.refl (pass : SyncPass) (rows : Table PersonalMatch) :
    FollowsAll pass rows rows where
  nextId := le_rfl
  follows := fun id new found => .inr ⟨new, found, .refl pass id new⟩

section Columns

variable {pass : SyncPass} {rows : Table PersonalMatch} {id : RecordId} {old : PersonalMatch}

theorem Follows.suspects {suspectFields : List Text} (found : rows.get? id = some old)
    (queued : statementSkips pass rows (.rewrite (.stampSuspects id suspectFields)) = false) :
    Follows pass id old { old with suspectFields } := by
  refine .inr ⟨rfl, rfl, ?_⟩
  intro counted entry produces
  rw [entryOf_suspectFields] at produces
  rcases Option.map_eq_some_iff.mp produces with ⟨before, produced, rfl⟩
  have same : uploadSuspectFields suspectFields = uploadSuspectFields old.suspectFields := by
    simpa [statementSkips, changesSuspects, found, counted, produced] using queued
  rw [produced, same, ← entry_suspectFields produced]

theorem Follows.timeline {heroesPlayed : List HeroSegment} (found : rows.get? id = some old)
    (queued : statementSkips pass rows (.rewrite (.stampTimeline id heroesPlayed false)) = false) :
    Follows pass id old { old with heroesPlayed } := by
  refine .inr ⟨rfl, rfl, ?_⟩
  intro counted entry produces
  have same : old.displayHero = { old with heroesPlayed }.displayHero ∧
      old.displayRole = { old with heroesPlayed }.displayRole := by
    simpa [statementSkips, changesHero, found, counted, produces] using queued
  rw [← entryOf_heroesPlayed same.1.symm same.2.symm]
  exact produces

end Columns

theorem followsAll_run {pass : SyncPass} {rows : Table PersonalMatch} {statement : Statement}
    (queued : statementSkips pass rows statement = false)
    (other : ∀ id rev synced, statement ≠ .setSynced id rev synced) :
    FollowsAll pass rows (statement.runMatches rows) where
  nextId := statement.nextId_le_runMatches rows
  follows := by
    intro id new found
    rcases Statement.runMatches_cases found with
      ⟨rfl, rfl⟩ | ⟨old, old_found, rfl | ⟨update, rfl, rewritten⟩ | ⟨rev, synced, swapped, -⟩⟩
    · exact .inl ⟨le_rfl, queued⟩
    · exact .inr ⟨new, old_found, .refl pass id new⟩
    · refine .inr ⟨old, old_found, ?_⟩
      cases rewritten with
      | kept => exact .refl _ _ _
      | requeued same_session same_rev => exact .inl ⟨rfl, congrArg (· + 1) same_rev⟩
      | suspects => exact .suspects old_found queued
      | timeline => exact .timeline old_found queued
      | resolutions => exact .inr ⟨rfl, rfl, fun _ _ same => same⟩
    · exact absurd swapped (other id rev synced)

theorem followsAll_call {state : Syncing} {turn : Turn Answer} {after : Calls}
    (taken : calls.next state.pool turn = some after)
    (queued : skipsQueue ⟨state, .call turn, { state with pool := after }⟩ = false) :
    FollowsAll state.pass state.store.personalMatch after.shared.store.personalMatch := by
  rcases interleaving_next_eq_some.mp taken with ⟨call, shared, moved, found, stepped, rfl⟩
  rcases Option.map_eq_some_iff.mp stepped with ⟨_, resumed, same⟩
  rcases Prod.mk.inj same with ⟨rfl, rfl⟩
  rcases call.write_cases turn.choice state.pool.shared.store with
    ⟨untouched, -⟩ | ⟨statement, issued, applied, ran⟩
  · simp only [untouched]
    exact .refl _ _
  · simp only [ran]
    refine followsAll_run ?_ ?_
    · simpa [skipsQueue, found, issued, applied] using queued
    · rintro id rev synced rfl
      exact Call.statement_ne_setSynced issued

/-! ## What a pass relies on -/

/-- A row read for upload is still unsynced, and at the revision read it has the entry read. -/
def ReadHolds (rows : Table PersonalMatch) (read : Record PersonalMatch) : Prop :=
  read.id < rows.nextId ∧ ∀ row, rows.get? read.id = some row →
    row.synced = false ∧ read.value.syncRev ≤ row.syncRev ∧
      (row.syncRev = read.value.syncRev →
        ∀ entry, entryOf row = some entry → entryOf read.value = some entry)

/-- At the revision claimed, the row has the entry uploaded. -/
def ClaimHolds (rows : Table PersonalMatch) (uploaded : RecordId → Option StatsUploadEntry)
    (claim : SyncClaim) : Prop :=
  claim.id < rows.nextId ∧ ∀ row, rows.get? claim.id = some row →
    claim.syncRev ≤ row.syncRev ∧
      (row.syncRev = claim.syncRev →
        ∀ entry, entryOf row = some entry → uploaded claim.id = some entry)

def PassHolds (rows : Table PersonalMatch) (uploaded : RecordId → Option StatsUploadEntry) :
    SyncPass → Prop
  | .reading read => (read.map Record.id).Nodup ∧ ∀ row ∈ read, ReadHolds rows row
  | pass => ∀ claim ∈ pass.claims, ClaimHolds rows uploaded claim

/-- The state between two steps: synced rows are in step, and the pass may rely on what it took. -/
structure Sound (state : Syncing) : Prop where
  inStep : InStep state
  pass : PassHolds state.store.personalMatch state.uploaded state.pass

section Calls

variable {pass : SyncPass} {rows rows' : Table PersonalMatch}
  {uploaded : RecordId → Option StatsUploadEntry}

theorem settled_of_claim {claim : SyncClaim} {row : PersonalMatch} (claimed : claim ∈ pass.claims)
    (same_rev : row.syncRev = claim.syncRev) : settled pass claim.id row = true := by
  simp only [settled, Bool.or_eq_true, List.any_eq_true, Bool.and_eq_true, beq_iff_eq]
  exact .inr ⟨claim, claimed, rfl, same_rev.symm⟩

theorem ReadHolds.follows {read : List (Record PersonalMatch)} {row : Record PersonalMatch}
    (all : FollowsAll (.reading read) rows rows') (row_mem : row ∈ read)
    (holds : ReadHolds rows row) : ReadHolds rows' row := by
  rcases holds with ⟨below, holds⟩
  refine ⟨Nat.lt_of_lt_of_le below all.nextId, ?_⟩
  intro new found
  rcases all.follows row.id new found with ⟨above, -⟩ | ⟨old, old_found, follows⟩
  · exact absurd (Nat.lt_of_lt_of_le below above) (Nat.lt_irrefl _)
  · rcases holds old old_found with ⟨unsynced, since, shows⟩
    rcases follows with ⟨requeued, bumped⟩ | ⟨same_synced, same_rev, keeps⟩
    · refine ⟨requeued, by omega, fun same => ?_⟩
      omega
    · refine ⟨same_synced.trans unsynced, by omega, ?_⟩
      intro same entry produces
      have at_rev : old.syncRev = row.value.syncRev := same_rev.symm.trans same
      have claimed : (⟨row.id, row.value.syncRev, row.value.sessionId⟩ : SyncClaim) ∈
          (SyncPass.reading read).claims := List.mem_map.mpr ⟨row, row_mem, rfl⟩
      exact shows at_rev entry (keeps (settled_of_claim claimed at_rev) entry produces)

theorem ClaimHolds.follows {claim : SyncClaim} (all : FollowsAll pass rows rows')
    (claimed : claim ∈ pass.claims) (holds : ClaimHolds rows uploaded claim) :
    ClaimHolds rows' uploaded claim := by
  rcases holds with ⟨below, holds⟩
  refine ⟨Nat.lt_of_lt_of_le below all.nextId, ?_⟩
  intro new found
  rcases all.follows claim.id new found with ⟨above, -⟩ | ⟨old, old_found, follows⟩
  · exact absurd (Nat.lt_of_lt_of_le below above) (Nat.lt_irrefl _)
  · rcases holds old old_found with ⟨since, shows⟩
    rcases follows with ⟨-, bumped⟩ | ⟨-, same_rev, keeps⟩
    · refine ⟨by omega, fun same => ?_⟩
      omega
    · refine ⟨by omega, ?_⟩
      intro same entry produces
      have at_rev := same_rev.symm.trans same
      exact shows at_rev entry (keeps (settled_of_claim claimed at_rev) entry produces)

theorem PassHolds.follows (all : FollowsAll pass rows rows')
    (holds : PassHolds rows uploaded pass) : PassHolds rows' uploaded pass := by
  cases pass with
  | reading read =>
      exact ⟨holds.1, fun row row_mem => (holds.2 row row_mem).follows all row_mem⟩
  | idle | mark | unmark =>
      exact fun claim claimed => (holds claim claimed).follows all claimed

end Calls

theorem Sound.call_step {state : Syncing} {turn : Turn Answer} {after : Calls} (sound : Sound state)
    (taken : calls.next state.pool turn = some after)
    (queued : skipsQueue ⟨state, .call turn, { state with pool := after }⟩ = false) :
    Sound { state with pool := after } where
  inStep := by
    intro id new found synced entry produces
    have all : FollowsAll state.pass state.store.personalMatch after.shared.store.personalMatch :=
      followsAll_call taken queued
    rcases all.follows id new found with ⟨-, waits⟩ | ⟨old, old_found, follows⟩
    · simp [Waits, synced, produces] at waits
    · rcases follows with ⟨requeued, -⟩ | ⟨same_synced, -, keeps⟩
      · exact absurd synced (by simp [requeued])
      · have old_synced := same_synced.symm.trans synced
        have counted : settled state.pass id old = true := by simp [settled, old_synced]
        exact sound.inStep id old old_found old_synced entry (keeps counted entry produces)
  pass :=
    have all : FollowsAll state.pass state.store.personalMatch after.shared.store.personalMatch :=
      followsAll_call taken queued
    sound.pass.follows all

/-! ## What a pass does -/

section Upload

variable {rows : List (Record PersonalMatch)} {row : Record PersonalMatch}
  {uploaded : RecordId → Option StatsUploadEntry} {id : RecordId} {entry : StatsUploadEntry}

theorem recordUpload_of_mem (distinct : (rows.map Record.id).Nodup) (row_mem : row ∈ rows)
    (produces : entryOf row.value = some entry) :
    recordUpload rows uploaded row.id = some entry := by
  have found : rows.find? (fun other => other.id == row.id) = some row := by
    cases first : rows.find? fun other => other.id == row.id with
    | none =>
        have unmatched := List.find?_eq_none.mp first row row_mem
        simp at unmatched
    | some other =>
        have same_id : other.id = row.id := by simpa using List.find?_some first
        have other_mem := List.mem_of_find?_eq_some first
        rw [List.inj_on_of_nodup_map distinct other_mem row_mem same_id]
  simp [recordUpload, found, produces]

theorem recordUpload_of_not_mem (absent : ∀ row ∈ rows, row.id ≠ id) :
    recordUpload rows uploaded id = uploaded id := by
  have unfound : rows.find? (fun row => row.id == id) = none := by
    rw [List.find?_eq_none]
    intro row row_mem
    simpa using absent row row_mem
  simp [recordUpload, unfound]

end Upload

theorem mem_getUnsynced {store : Store} {row : Record PersonalMatch}
    (row_mem : row ∈ getUnsynced store) :
    store.personalMatch.get? row.id = some row.value ∧ row.value.synced = false := by
  unfold getUnsynced at row_mem
  rw [List.mem_insertionSort, List.mem_filter] at row_mem
  rcases row_mem with ⟨stored, selected⟩
  simp only [Bool.and_eq_true, Bool.not_eq_true'] at selected
  exact ⟨Table.mem_rows_iff.mp stored, selected.1.1⟩

theorem nodup_getUnsynced (store : Store) : ((getUnsynced store).map Record.id).Nodup := by
  unfold getUnsynced
  have sorted := (List.perm_insertionSort (fun first second : Record PersonalMatch =>
    first.value.playedAt ≤ second.value.playedAt) (store.personalMatch.rows.filter fun row =>
      !row.value.synced && row.value.outcome != "unknown".toList &&
        row.value.uploadRejection.isNone)).map Record.id
  rw [sorted.nodup_iff]
  exact store.personalMatch.distinct.sublist (List.filter_sublist.map _)

theorem SyncClaim.mem_of_mem_groups {claims : List SyncClaim} {claim : SyncClaim}
    (claimed : claim ∈ (groups claims).flatten) : claim ∈ claims := by
  rcases List.mem_flatten.mp claimed with ⟨group, group_mem, claim_mem⟩
  rcases List.mem_map.mp group_mem with ⟨key, -, rfl⟩
  exact List.mem_of_mem_filter claim_mem

section Marking

variable {rows : Table PersonalMatch} {uploaded : RecordId → Option StatsUploadEntry}
  {rest : List (List SyncClaim)}

theorem passHolds_nextGroup (holds : ∀ claim ∈ rest.flatten, ClaimHolds rows uploaded claim) :
    PassHolds rows uploaded (.nextGroup rest) := by
  induction rest with
  | nil => exact holds
  | cons group rest ih =>
      cases group with
      | nil => exact ih holds
      | cons claim todo => exact holds

theorem passHolds_nextUnmark {todo : List SyncClaim}
    (holds : ∀ claim ∈ rest.flatten, ClaimHolds rows uploaded claim) :
    PassHolds rows uploaded (.nextUnmark rest todo) := by
  cases todo with
  | nil => exact passHolds_nextGroup holds
  | cons claim todo => exact holds

theorem passHolds_nextMark {marked todo : List SyncClaim} {allOk : Bool}
    (holds : ∀ claim ∈ todo ++ rest.flatten, ClaimHolds rows uploaded claim) :
    PassHolds rows uploaded (.nextMark marked allOk rest todo) := by
  cases todo with
  | cons claim todo => exact holds
  | nil =>
      cases allOk with
      | true => exact passHolds_nextGroup holds
      | false => exact passHolds_nextUnmark holds

/-- A swap writes no uploaded column and no revision. -/
theorem ClaimHolds.setSynced {claim : SyncClaim} (id : RecordId) (rev : ℕ) (synced : Bool)
    (holds : ClaimHolds rows uploaded claim) :
    ClaimHolds ((Statement.setSynced id rev synced).runMatches rows) uploaded claim := by
  rcases holds with ⟨below, holds⟩
  refine ⟨Nat.lt_of_lt_of_le below (Statement.nextId_le_runMatches _ rows), ?_⟩
  intro new found
  rcases Statement.runMatches_setSynced found with ⟨old, old_found, ⟨-, -, rfl⟩ | rfl⟩
  · exact holds old old_found
  · exact holds new old_found

end Marking

section Pass

variable {state after : Syncing}

theorem Sound.read_step {answer : Answer} (sound : Sound state)
    (taken : state.read answer = some after) : Sound after := by
  unfold Syncing.read at taken
  split at taken
  next =>
    split at taken
    next =>
      rcases Option.some.inj taken with rfl
      refine ⟨sound.inStep, nodup_getUnsynced _, ?_⟩
      intro read read_mem
      rcases mem_getUnsynced read_mem with ⟨stored, unsynced⟩
      refine ⟨Table.lt_nextId_of_get? stored, ?_⟩
      intro row found
      rcases Option.some.inj (stored.symm.trans found) with rfl
      exact ⟨unsynced, le_rfl, fun _ _ produces => produces⟩
    next => cases taken
  next =>
    split at taken
    next =>
      rcases Option.some.inj taken with rfl
      exact sound
    next => cases taken

/-- The rows of an upload are not synced, so it leaves the synced rows in step. -/
theorem InStep.recordUpload {rows : List (Record PersonalMatch)} {pass : SyncPass}
    (inStep : InStep state) (reads : ∀ row ∈ rows, ReadHolds state.store.personalMatch row) :
    InStep { state with pass, uploaded := recordUpload rows state.uploaded } := by
  intro id row found synced entry produces
  have absent : ∀ read ∈ rows, read.id ≠ id := by
    rintro read read_mem rfl
    have unsynced := ((reads read read_mem).2 row found).1
    simp [synced] at unsynced
  exact (recordUpload_of_not_mem absent).trans (inStep id row found synced entry produces)

/-- What was read is claimed, and what is claimed was uploaded. -/
theorem claimHolds_recordUpload {rows : List (Record PersonalMatch)} {table : Table PersonalMatch}
    {uploaded : RecordId → Option StatsUploadEntry} {claim : SyncClaim}
    (distinct : (rows.map Record.id).Nodup) (reads : ∀ row ∈ rows, ReadHolds table row)
    (claimed : claim ∈ SyncClaim.capture rows) :
    ClaimHolds table (recordUpload rows uploaded) claim := by
  rcases List.mem_map.mp claimed with ⟨read, read_mem, rfl⟩
  rcases reads read read_mem with ⟨below, holds⟩
  refine ⟨below, ?_⟩
  intro row found
  rcases holds row found with ⟨-, since, shows⟩
  refine ⟨since, ?_⟩
  intro same_rev entry produces
  exact recordUpload_of_mem distinct read_mem (shows same_rev entry produces)

theorem Sound.upload_step {result : UploadResult} (sound : Sound state)
    (taken : state.upload result = some after) : Sound after := by
  unfold Syncing.upload at taken
  split at taken
  next rows reading =>
    have pass := sound.pass
    rw [reading] at pass
    rcases pass with ⟨distinct, reads⟩
    split at taken
    next =>
      rcases Option.some.inj taken with rfl
      exact ⟨sound.inStep, fun _ claimed => nomatch claimed⟩
    next =>
      rcases Option.some.inj taken with rfl
      exact ⟨sound.inStep.recordUpload reads, fun _ claimed => nomatch claimed⟩
    next order =>
      split at taken
      next permuted =>
        rcases Option.some.inj taken with rfl
        refine ⟨sound.inStep.recordUpload reads, passHolds_nextGroup ?_⟩
        intro claim claimed
        have grouped := permuted.flatten.mem_iff.mp claimed
        exact claimHolds_recordUpload distinct reads (SyncClaim.mem_of_mem_groups grouped)
      next => cases taken
  next => cases taken

theorem Sound.mark {claim : SyncClaim} {todo marked : List SyncClaim} {allOk ok : Bool}
    {rest : List (List SyncClaim)} (sound : Sound state)
    (position : state.pass = .mark claim todo marked allOk rest) (marked' : List SyncClaim) :
    Sound { state with
      pool := state.setSynced claim true
      pass := .nextMark marked' ok rest todo } := by
  have holds := sound.pass
  rw [position] at holds
  constructor
  · intro id new found synced entry produces
    rcases Statement.runMatches_setSynced found with ⟨old, old_found, ⟨rfl, same_rev, rfl⟩ | rfl⟩
    · rw [entryOf_synced] at produces
      have claimed := holds claim List.mem_cons_self
      exact (claimed.2 old old_found).2 same_rev entry produces
    · exact sound.inStep id new old_found synced entry produces
  · refine passHolds_nextMark ?_
    intro other other_mem
    exact (holds other (List.mem_cons_of_mem claim other_mem)).setSynced _ _ _

theorem Sound.unmark {claim : SyncClaim} {todo : List SyncClaim} {rest : List (List SyncClaim)}
    (sound : Sound state) (position : state.pass = .unmark claim todo rest) :
    Sound { state with
      pool := state.setSynced claim false
      pass := .nextUnmark rest todo } := by
  have holds := sound.pass
  rw [position] at holds
  constructor
  · intro id new found synced entry produces
    rcases Statement.runMatches_setSynced found with ⟨old, old_found, ⟨-, -, rfl⟩ | rfl⟩
    · cases synced
    · exact sound.inStep id new old_found synced entry produces
  · refine passHolds_nextUnmark ?_
    intro other other_mem
    exact (holds other other_mem).setSynced _ _ _

theorem Sound.swap_step {answer : Answer} (sound : Sound state)
    (taken : state.swap answer = some after) : Sound after := by
  unfold Syncing.swap at taken
  split at taken
  next position =>
    rcases Option.some.inj taken with rfl
    split
    · exact sound.mark position _
    · exact sound.mark position _
  next position =>
    rcases Option.some.inj taken with rfl
    exact sound.unmark position
  next =>
    rcases Option.some.inj taken with rfl
    exact ⟨sound.inStep, fun _ claimed => nomatch claimed⟩
  next =>
    rcases Option.some.inj taken with rfl
    exact ⟨sound.inStep, fun _ claimed => nomatch claimed⟩
  next => cases taken

end Pass

theorem Sound.step {state after : Syncing} {event : Event} (sound : Sound state)
    (taken : syncing.next state event = some after)
    (queued : skipsQueue ⟨state, event, after⟩ = false) : Sound after := by
  cases event with
  | call turn =>
      rcases Option.map_eq_some_iff.mp taken with ⟨pool, moved, rfl⟩
      exact sound.call_step moved queued
  | read answer => exact sound.read_step taken
  | upload result => exact sound.upload_step taken
  | swap answer => exact sound.swap_step taken

/-- No update is lost in a run none of whose steps skips the queue. -/
theorem no_update_lost {start final : Syncing} {steps : List SyncStep}
    (run : syncing.Run start steps final) (idle : start.pass = .idle) (inStep : InStep start)
    (queued : ∀ step ∈ steps, skipsQueue step = false) : InStep final := by
  have init : Sound start := by
    refine ⟨inStep, ?_⟩
    rw [idle]
    exact fun _ claimed => nomatch claimed
  have sound : Sound final :=
    run.invariant_of_forall Sound init queued fun taken queued sound => sound.step taken queued
  exact sound.inStep

/-- An empty store and nothing uploaded, with these calls before their first step. -/
def Syncing.fresh (processes : List Call) : Syncing :=
  ⟨.fresh processes, .idle, fun _ => none⟩

theorem inStep_fresh (processes : List Call) : InStep (.fresh processes) := by
  intro id row found
  cases found

/-- One whole pass over the only row of that game, at this revision. -/
def passTurns (rev : ℕ) : List Event :=
  [.read .applied, .upload (.accepted [[⟨0, rev, game⟩]]), .swap .applied]

/-- A capture, and the back-fill of another outcome between an upload and its mark. -/
def outcomeBackfill : Syncing :=
  .fresh [.insertMatch (.start busanBoard), .script (.setSessionOutcome game "defeat".toList)]

def backfillEvents : List Event :=
  (turns 0 3).map .call ++ (passTurns 0).take 2 ++ (turns 1 3).map .call ++ [.swap .applied] ++
    passTurns 1

/-- The first mark misses the new revision, and the second pass uploads the new outcome. -/
theorem no_update_lost_outcomeBackfill :
    ∃ final, syncing.exec outcomeBackfill backfillEvents = some final ∧ InStep final ∧
      (final.store.personalMatch.get? 0).any PersonalMatch.synced = true := by
  have run : syncing.Run outcomeBackfill (syncing.stepsOf outcomeBackfill backfillEvents) _ :=
    .of_exec rfl
  refine ⟨_, rfl, no_update_lost run rfl (inStep_fresh _) ?_, ?_⟩
  · decide
  · decide

/-- The promise of the queue: whatever the calls and the passes do, in whatever order. -/
def NoUpdateLost : Prop :=
  ∀ (start final : Syncing) (steps : List SyncStep), start.pass = .idle → InStep start →
    syncing.Run start steps final → InStep final

/-- A board whose map was held when it was read, and the confirmation of that same map. -/
def mapConfirmation : Syncing :=
  .fresh [.insertMatch (.start { busanBoard with suspectFields := ["map".toList] }),
    .script (.setSessionMap game "Busan".toList)]

/-- The map is the one stored, so no revision is given, and the suspect name of a row already
uploaded is dropped. -/
theorem not_noUpdateLost : ¬NoUpdateLost := by
  intro promise
  have run : syncing.Run mapConfirmation
      (syncing.stepsOf mapConfirmation
        ((turns 0 3).map .call ++ passTurns 0 ++ (turns 1 4).map .call)) _ :=
    .of_exec rfl
  have inStep := promise mapConfirmation _ _ rfl (inStep_fresh _) run
  have uploaded := inStep 0 { busanBoard with synced := true } rfl rfl _ rfl
  revert uploaded
  decide

end ScuffedCrew.Sync
