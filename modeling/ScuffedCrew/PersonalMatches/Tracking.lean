import ScuffedCrew.PersonalMatches.Migration

/-!
# What every statement keeps

The keeper of a group is the row that the keeper rule ranks first.  Between any
two statements the table holds the groups of the original one, and the keeper of
each group reads like the original keeper.
-/

namespace ScuffedCrew.PersonalMatches

open Rust Database

variable {hash : Text → Text → Text → Instant → Text} {original current after : MatchTable}
  {pair : Text × Text} {key other : Text} {row twin : DbPersonalMatch}

/-- The row that is ranked first among those that stand for the pair. -/
structure Keeper (hash : Text → Text → Text → Instant → Text) (table : MatchTable)
    (pair : Text × Text) (key : Text) (row : DbPersonalMatch) : Prop where
  found : table.get? key = some row
  stands : (row.content hash).pair = pair
  first : ∀ other row', table.get? other = some row' → (row'.content hash).pair = pair →
    other ≠ key → preferPersonalMatchKeeper row.uploadedAt key row'.uploadedAt other = true

/-- A row on the key of a member and a session holds that member and that session. -/
def Keyed (table : MatchTable) : Prop :=
  ∀ key row, table.get? key = some row → ∀ member session, session ≠ [] →
    member.byteLen < 2 ^ 32 → key = personalMatchRecordKey member session →
      row.memberId = member ∧ row.sessionId = session

/-- Some row stands for the pair. -/
def Holds (hash : Text → Text → Text → Instant → Text) (table : MatchTable) (pair : Text × Text) :
    Prop :=
  ∃ key row, table.get? key = some row ∧ (row.content hash).pair = pair

structure Tracks (hash : Text → Text → Text → Instant → Text) (original current : MatchTable) :
    Prop where
  keyed : Keyed current
  pairs : ∀ pair, Holds hash original pair ↔ Holds hash current pair
  keeper : ∀ pair key row, Keeper hash current pair key row →
    ∃ id old, Keeper hash original pair id old ∧ row.content hash = old.content hash

/-- Every row has a session. -/
def Filled (table : MatchTable) : Prop := ∀ key row, table.get? key = some row → ¬row.Blank

/-- The rows that stand for the pair are on these keys. -/
def Within (hash : Text → Text → Text → Instant → Text) (table : MatchTable) (pair : Text × Text)
    (keys : List Text) : Prop :=
  ∀ key row, table.get? key = some row → (row.content hash).pair = pair → key ∈ keys

theorem Tracks.refl (keyed : Keyed original) : Tracks hash original original :=
  ⟨keyed, fun _ => .rfl, fun _ key row keeper => ⟨key, row, keeper, rfl⟩⟩

/-! ## A group that changes -/

/-- The rows of the other groups stay, and the keeper of the group that changes reads as before. -/
theorem Tracks.of_group (tracks : Tracks hash original current) (pair : Text × Text)
    (keyed : Keyed after)
    (others : ∀ key row, (row.content hash).pair ≠ pair →
      (after.get? key = some row ↔ current.get? key = some row))
    (holds : Holds hash current pair ↔ Holds hash after pair)
    (keeper : ∀ key row, Keeper hash after pair key row →
      ∃ id old, Keeper hash current pair id old ∧ row.content hash = old.content hash) :
    Tracks hash original after := by
  refine ⟨keyed, ?_, ?_⟩
  · intro pair'
    rw [tracks.pairs pair']
    by_cases same : pair' = pair
    · rw [same]
      exact holds
    · constructor
      · rintro ⟨key, row, found, rfl⟩
        exact ⟨key, row, (others key row same).mpr found, rfl⟩
      · rintro ⟨key, row, found, rfl⟩
        exact ⟨key, row, (others key row same).mp found, rfl⟩
  · intro pair' key row kept
    by_cases same : pair' = pair
    · subst same
      rcases keeper key row kept with ⟨id, old, kept, like⟩
      rcases tracks.keeper pair' id old kept with ⟨id', oldest, kept, like'⟩
      exact ⟨id', oldest, kept, Eq.trans like like'⟩
    · apply tracks.keeper pair' key row
      rcases kept with ⟨found, rfl, first⟩
      refine ⟨(others key row same).mp found, rfl, ?_⟩
      intro other row' found' pair_eq differs
      exact first other row' ((others other row' (by rw [pair_eq]; exact same)).mpr found') pair_eq
        differs

/-! ## Giving a row its session -/

/-- A blank row gets the session it stands for. -/
theorem Tracks.setSession {session : Text} (tracks : Tracks hash original current)
    (found : current.get? key = some row) (blank : row.Blank)
    (same : session = row.effectiveSession hash) :
    Tracks hash original (current.update key (.setSession · session)) := by
  have filled : session ≠ [] := by
    rw [same]
    exact DbPersonalMatch.effectiveSession_ne_nil
  have reads : ∀ other, ((current.update key (.setSession · session)).get? other).map
      (DbPersonalMatch.content · hash) =
        (current.get? other).map (DbPersonalMatch.content · hash) := by
    intro other
    rw [Ordered.get?_update]
    split
    next is_key =>
      rw [is_key, found]
      simp [DbPersonalMatch.content_setSession filled same]
    next => rfl
  have back : ∀ {other : Text} {row' : DbPersonalMatch},
      (current.update key (.setSession · session)).get? other = some row' →
        ∃ old, current.get? other = some old ∧ row'.content hash = old.content hash := by
    intro other row' found'
    have both := reads other
    rw [found'] at both
    rcases Option.map_eq_some_iff.mp (Eq.symm both) with ⟨old, found_old, like⟩
    exact ⟨old, found_old, Eq.symm like⟩
  have forth : ∀ {other : Text} {old : DbPersonalMatch}, current.get? other = some old →
      ∃ row', (current.update key (.setSession · session)).get? other = some row' ∧
        row'.content hash = old.content hash := by
    intro other old found'
    have both := reads other
    rw [found'] at both
    rcases Option.map_eq_some_iff.mp both with ⟨row', found_row, like⟩
    exact ⟨row', found_row, like⟩
  refine ⟨?_, ?_, ?_⟩
  · intro other row' found' member session' filled' small at_key
    rw [Ordered.get?_update] at found'
    split at found'
    next is_key =>
      -- The row was blank, so it is not on the key of a session.
      have old :=
        tracks.keyed key row found member session' filled' small (by rw [← is_key, at_key])
      rw [DbPersonalMatch.Blank, old.2] at blank
      exact absurd blank filled'
    next => exact tracks.keyed other row' found' member session' filled' small at_key
  · intro pair
    rw [tracks.pairs pair]
    constructor
    · rintro ⟨other, old, found', rfl⟩
      rcases forth found' with ⟨row', found_row, like⟩
      exact ⟨other, row', found_row, by rw [like]⟩
    · rintro ⟨other, row', found', rfl⟩
      rcases back found' with ⟨old, found_old, like⟩
      exact ⟨other, old, found_old, by rw [like]⟩
  · rintro pair other row' ⟨found', rfl, first⟩
    rcases back found' with ⟨old, found_old, like⟩
    have uploaded : ∀ {left right : DbPersonalMatch}, left.content hash = right.content hash →
        left.uploadedAt = right.uploadedAt := by
      intro left right like
      exact congrArg PersonalMatch.uploadedAt like
    have kept : Keeper hash current (row'.content hash).pair other old := by
      refine ⟨found_old, by rw [like], ?_⟩
      intro third older found_third pair_eq differs
      rcases forth found_third with ⟨row'', found_row, like'⟩
      rw [← uploaded like, ← uploaded like']
      exact first third row'' found_row (by rw [like', pair_eq]) differs
    rcases tracks.keeper _ other old kept with ⟨id, oldest, kept, like'⟩
    exact ⟨id, oldest, kept, Eq.trans like like'⟩

/-! ## Collapsing a group -/

theorem pair_of_filled (filled : ¬row.Blank) :
    (row.content hash).pair = (row.memberId, row.sessionId) := by
  rw [DbPersonalMatch.content_of_filled filled]
  rfl

/-- The losers of a group are the other rows that stand for its pair. -/
theorem get?_deleteLosers (hash : Text → Text → Text → Instant → Text) (filled : Filled current) :
    (current.deleteWhere fun key row => decide (row.memberId = pair.1 ∧ row.sessionId = pair.2 ∧
      key ≠ other)).get? key = some row ↔
        current.get? key = some row ∧ ((row.content hash).pair = pair → key = other) := by
  rw [Ordered.get?_deleteWhere, Option.filter_eq_some_iff]
  apply and_congr_right
  intro found
  rw [pair_of_filled (filled key row found), Prod.ext_iff]
  simp only [Bool.not_eq_true', decide_eq_false_iff_not, not_and, not_not]
  tauto

theorem Tracks.deleteLosers (tracks : Tracks hash original current) (filled : Filled current)
    (kept : Keeper hash current pair other row) :
    Tracks hash original (current.deleteWhere fun key row => decide (row.memberId = pair.1 ∧
      row.sessionId = pair.2 ∧ key ≠ other)) := by
  apply tracks.of_group pair
  · intro key row' found
    exact tracks.keyed key row' ((get?_deleteLosers hash filled).mp found).1
  · intro key row' differs
    rw [get?_deleteLosers hash filled]
    exact ⟨fun both => both.1, fun found => ⟨found, fun same => absurd same differs⟩⟩
  · refine iff_of_true ⟨other, row, kept.found, kept.stands⟩ ⟨other, row, ?_, kept.stands⟩
    exact (get?_deleteLosers hash filled).mpr ⟨kept.found, fun _ => rfl⟩
  · rintro key row' ⟨found, stands, -⟩
    rcases (get?_deleteLosers hash filled).mp found with ⟨found', only⟩
    obtain rfl := only stands
    refine ⟨key, row', ⟨found', stands, fun third row'' found'' stands' differs => ?_⟩, rfl⟩
    obtain rfl : row = row' := Option.some.inj (Eq.trans (Eq.symm kept.found) found')
    exact kept.first third row'' found'' stands' differs

/-! ## Moving a row to its key -/

/-- Nothing else is on the key of a row that stands for its pair alone. -/
theorem get?_desired_eq_none (keyed : Keyed current) (filled : Filled current)
    (found : current.get? key = some row)
    (alone : Within hash current (row.content hash).pair [key])
    (misplaced : key ≠ personalMatchRecordKey row.memberId row.sessionId) :
    current.get? (personalMatchRecordKey row.memberId row.sessionId) = none := by
  cases occupied : current.get? (personalMatchRecordKey row.memberId row.sessionId) with
  | none => rfl
  | some other =>
      have session := filled key row found
      rcases keyed _ other occupied row.memberId row.sessionId session row.fits rfl with
        ⟨member_eq, session_eq⟩
      have same : (other.content hash).pair = (row.content hash).pair := by
        rw [pair_of_filled (filled _ other occupied), pair_of_filled session, member_eq, session_eq]
      have at_key := List.mem_singleton.mp (alone _ other occupied same)
      exact absurd (Eq.symm at_key) misplaced

theorem Tracks.copy (tracks : Tracks hash original current) (filled : Filled current)
    (found : current.get? key = some row)
    (alone : Within hash current (row.content hash).pair [key])
    (misplaced : key ≠ personalMatchRecordKey row.memberId row.sessionId) :
    Tracks hash original (current.upsert (personalMatchRecordKey row.memberId row.sessionId)
      (row.relocated row.sessionId)) := by
  have session := filled key row found
  have copied : (row.relocated row.sessionId).content hash = row.content hash :=
    DbPersonalMatch.content_relocated session
  have free := get?_desired_eq_none tracks.keyed filled found alone misplaced
  apply tracks.of_group (row.content hash).pair
  · intro other row' found' member session' filled' small at_key
    rw [Ordered.get?_upsert] at found'
    split at found'
    next desired =>
      rcases Option.some.inj found' with rfl
      rw [desired] at at_key
      exact personalMatchRecordKey_inj row.fits small at_key
    next => exact tracks.keyed other row' found' member session' filled' small at_key
  · intro other row' differs
    rw [Ordered.get?_upsert]
    split
    next desired =>
      rw [desired, free]
      constructor
      · intro same
        rcases Option.some.inj same with rfl
        exact absurd (congrArg PersonalMatch.pair copied) differs
      · nofun
    next => rfl
  · refine iff_of_true ⟨key, row, found, rfl⟩ ⟨key, row, ?_, rfl⟩
    rw [Ordered.get?_upsert, if_neg misplaced, found]
  · rintro other row' ⟨found', stands, -⟩
    have kept : Keeper hash current (row.content hash).pair key row := by
      refine ⟨found, rfl, ?_⟩
      intro third row'' found'' stands' differs
      exact absurd (List.mem_singleton.mp (alone third row'' found'' stands')) differs
    refine ⟨key, row, kept, ?_⟩
    rw [Ordered.get?_upsert] at found'
    split at found'
    next =>
      rcases Option.some.inj found' with rfl
      exact copied
    next =>
      obtain rfl := List.mem_singleton.mp (alone other row' found' stands)
      rw [found] at found'
      rw [Option.some.inj found']

/-- Of two rows that read alike either one may be deleted. -/
theorem Tracks.erase (tracks : Tracks hash original current)
    (found : current.get? key = some row) (found' : current.get? other = some twin)
    (like : twin.content hash = row.content hash)
    (both : Within hash current (row.content hash).pair [key, other]) (differs : key ≠ other) :
    Tracks hash original (current.erase key) := by
  apply tracks.of_group (row.content hash).pair
  · intro third row' found_third
    rw [Ordered.get?_erase] at found_third
    split at found_third
    · cases found_third
    · exact tracks.keyed third row' found_third
  · intro third row' elsewhere
    rw [Ordered.get?_erase]
    split
    next is_key =>
      rw [is_key, found]
      refine ⟨nofun, ?_⟩
      intro same
      rcases Option.some.inj same with rfl
      exact absurd rfl elsewhere
    next => rfl
  · refine iff_of_true ⟨key, row, found, rfl⟩ ⟨other, twin, ?_, by rw [like]⟩
    rw [Ordered.get?_erase, if_neg (Ne.symm differs), found']
  · rintro third row' ⟨found_third, stands, -⟩
    rw [Ordered.get?_erase] at found_third
    split at found_third
    · cases found_third
    next elsewhere =>
      obtain rfl : third = other := by
        have at_third := both third row' found_third stands
        simpa [elsewhere] using at_third
      rw [found'] at found_third
      rcases Option.some.inj found_third with rfl
      -- One of the two is the keeper before, and the other one reads like it.
      have order : preferPersonalMatchKeeper row.uploadedAt key twin.uploadedAt third = true ∨
          preferPersonalMatchKeeper twin.uploadedAt third row.uploadedAt key = true :=
        prefer_total differs
      rcases order with ranked | ranked
      · refine ⟨key, row, ⟨found, rfl, ?_⟩, like⟩
        intro fourth row'' found'' stands' unlike
        have at_fourth := both fourth row'' found'' stands'
        obtain rfl : fourth = third := by simpa [unlike] using at_fourth
        rw [found'] at found''
        rcases Option.some.inj found'' with rfl
        exact ranked
      · refine ⟨third, twin, ⟨found', by rw [like], ?_⟩, rfl⟩
        intro fourth row'' found'' stands' unlike
        have at_fourth := both fourth row'' found'' stands'
        obtain rfl : fourth = key := by simpa [unlike] using at_fourth
        rw [found] at found''
        rcases Option.some.inj found'' with rfl
        exact ranked

end ScuffedCrew.PersonalMatches
