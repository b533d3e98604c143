import ScuffedCrew.Leaderboard.Snapshot

/-!
# One scan for every board

What the hash maps hold after a scan is the saturating total of the rows of each
member.  Neither the order of the rows nor the order of the maps is seen on a
board, and a board of one hero is that of a scan of its own.
-/

namespace ScuffedCrew.Leaderboard

open Rust

/-- The counters that a merge adds up. -/
inductive Counter
  | games
  | wins
  | elims
  | deaths
  | kdGames

namespace LeaderboardHeroAgg

def counter (agg : LeaderboardHeroAgg) : Counter → U32
  | .games => agg.games
  | .wins => agg.wins
  | .elims => agg.elims
  | .deaths => agg.deaths
  | .kdGames => agg.kdGames

variable {agg other : LeaderboardHeroAgg}

theorem ext_counters (member : agg.memberId = other.memberId)
    (name : agg.displayName = other.displayName)
    (counters : ∀ counter, agg.counter counter = other.counter counter) : agg = other := by
  have games := counters .games
  have wins := counters .wins
  have elims := counters .elims
  have deaths := counters .deaths
  have kdGames := counters .kdGames
  cases agg
  cases other
  simp_all [counter]

theorem counter_merge (counter : Counter) :
    (agg.merge other).counter counter = agg.counter counter + other.counter counter := by
  cases counter <;> rfl

end LeaderboardHeroAgg

section Merging

variable {aggs others : List LeaderboardHeroAgg} {map : HashMap Text LeaderboardHeroAgg}
  {agg first : LeaderboardHeroAgg} {memberId : Text} {counter : Counter}

/-- `and_modify` or `or_insert`, for the entry of one member. -/
def mergeInto (found : Option LeaderboardHeroAgg) (agg : LeaderboardHeroAgg) :
    Option LeaderboardHeroAgg :=
  some ((found.map fun existing => existing.merge agg).getD agg)

def merged (aggs : List LeaderboardHeroAgg) : HashMap Text LeaderboardHeroAgg :=
  aggs.foldl mergeAggOne ∅

theorem lookup_mergeAggOne : (mergeAggOne map agg).lookup memberId =
    if memberId = agg.memberId then mergeInto (map.lookup agg.memberId) agg
    else map.lookup memberId := by
  unfold mergeAggOne mergeInto
  split <;> rename_i found <;> simp only [HashMap.lookup_insert', found, Option.map_some,
    Option.map_none, Option.getD_some, Option.getD_none]

theorem lookup_foldl : (aggs.foldl mergeAggOne map).lookup memberId =
    (aggs.filter fun agg => agg.memberId == memberId).foldl mergeInto (map.lookup memberId) := by
  induction aggs generalizing map with
  | nil => rfl
  | cons agg aggs ih =>
      rw [List.foldl_cons, ih, lookup_mergeAggOne, List.filter_cons]
      by_cases same : memberId = agg.memberId
      · subst same
        simp
      · simp [same, Ne.symm same]

theorem lookup_merged : (merged aggs).lookup memberId =
    (aggs.filter fun agg => agg.memberId == memberId).foldl mergeInto none := lookup_foldl

/-- The entry of a member is its first row with every counter added up. -/
theorem foldl_mergeInto (first : LeaderboardHeroAgg) (rest : List LeaderboardHeroAgg) :
    ∃ total, rest.foldl mergeInto (some first) = some total ∧ total.memberId = first.memberId ∧
      total.displayName = first.displayName ∧ ∀ counter, total.counter counter =
        first.counter counter + (rest.map fun agg => agg.counter counter).sum := by
  induction rest generalizing first with
  | nil => exact ⟨first, rfl, rfl, rfl, by simp⟩
  | cons agg rest ih =>
      rcases ih (first.merge agg) with ⟨total, folded, member, name, counters⟩
      refine ⟨total, folded, member, name, ?_⟩
      intro counter
      rw [counters, LeaderboardHeroAgg.counter_merge, List.map_cons, List.sum_cons, add_assoc]

/-- The entry of a member depends on the rows, not on their order. -/
theorem foldl_mergeInto_perm (perm : aggs.Perm others)
    (member : ∀ one ∈ aggs, one.memberId = memberId)
    (names : ∀ one ∈ aggs, ∀ other ∈ aggs, one.displayName = other.displayName) :
    aggs.foldl mergeInto none = others.foldl mergeInto none := by
  cases aggs with
  | nil => rw [List.nil_perm.mp perm]
  | cons first rest =>
      cases others with
      | nil => cases List.perm_nil.mp perm
      | cons first' rest' =>
          have first_mem : first' ∈ first :: rest := perm.mem_iff.mpr List.mem_cons_self
          rcases foldl_mergeInto first rest with ⟨total, folded, its_member, its_name, counters⟩
          rcases foldl_mergeInto first' rest' with ⟨total', folded', its_member', its_name', counters'⟩
          rw [List.foldl_cons, List.foldl_cons]
          change rest.foldl mergeInto (some first) = rest'.foldl mergeInto (some first')
          rw [folded, folded', Option.some.injEq]
          apply LeaderboardHeroAgg.ext_counters
          · rw [its_member, its_member', member first List.mem_cons_self, member first' first_mem]
          · rw [its_name, its_name', names first List.mem_cons_self first' first_mem]
          · intro counter
            rw [counters, counters', ← List.sum_cons, ← List.sum_cons]
            exact (perm.map fun agg => agg.counter counter).sum_eq

/-- Every entry is the one of its member. -/
def Keyed (map : HashMap Text LeaderboardHeroAgg) : Prop :=
  ∀ memberId agg, map.lookup memberId = some agg → agg.memberId = memberId

theorem keyed_empty : Keyed ∅ := by
  intro memberId agg found
  cases found

theorem keyed_mergeAggOne (keyed : Keyed map) : Keyed (mergeAggOne map agg) := by
  intro memberId found at_member
  rw [lookup_mergeAggOne] at at_member
  split at at_member
  next same =>
    rcases Option.some.inj at_member with rfl
    cases entry : map.lookup agg.memberId with
    | none => exact same.symm
    | some existing =>
        rw [same]
        exact keyed _ existing entry
  next => exact keyed _ _ at_member

theorem keyed_merged (aggs : List LeaderboardHeroAgg) : Keyed (merged aggs) := by
  unfold merged
  suffices ∀ map, Keyed map → Keyed (aggs.foldl mergeAggOne map) from this ∅ keyed_empty
  induction aggs with
  | nil => exact fun _ keyed => keyed
  | cons agg aggs ih => exact fun map keyed => ih _ (keyed_mergeAggOne keyed)

end Merging

section Scanning

variable {rows : List (Text × LeaderboardHeroAgg)} {scan : Scan} {hero : Text}

/-- The rows that a board is made of; the empty hero is every hero. -/
def played (hero : Text) (rows : List (Text × LeaderboardHeroAgg)) : List LeaderboardHeroAgg :=
  (rows.filter fun row => row.2.games.val != 0 && (hero.isEmpty || row.1 == hero)).map Prod.snd

theorem all_foldl : (rows.foldl Scan.add scan).all =
    (played [] rows).foldl mergeAggOne scan.all := by
  induction rows generalizing scan with
  | nil => rfl
  | cons row rows ih =>
      rw [List.foldl_cons, ih, Scan.add]
      by_cases unplayed : row.2.games.val = 0
      · simp [unplayed, played]
      · simp [unplayed, played]

theorem byHero_foldl (named : hero.isEmpty = false) :
    ((rows.foldl Scan.add scan).byHero.lookup hero).getD ∅ =
        (played hero rows).foldl mergeAggOne ((scan.byHero.lookup hero).getD ∅) := by
  induction rows generalizing scan with
  | nil => rfl
  | cons row rows ih =>
      rw [List.foldl_cons, ih, Scan.add]
      by_cases unplayed : row.2.games.val = 0
      · simp [unplayed, played]
      · by_cases same : hero = row.1
        · subst same
          simp [unplayed, played]
        · simp [unplayed, played, same, Ne.symm same, named]

/-- A board's members are the totals of its rows, in some order. -/
theorem source_perm (iteration : Iteration) (rows : List (Text × LeaderboardHeroAgg)) (hero : Text) :
    ((LeaderboardSnapshot.fromRows iteration rows).source hero).Perm
      (merged (played hero rows)).values := by
  unfold LeaderboardSnapshot.source LeaderboardSnapshot.fromRows
  simp only
  cases named : hero.isEmpty with
  | true =>
      rw [if_pos rfl, List.isEmpty_iff.mp named, scanRows, all_foldl]
      exact iteration.perm none _
  | false =>
      rw [if_neg (by simp), HashMap.lookup_mapValues]
      have members := @byHero_foldl rows ⟨∅, ∅⟩ hero named
      change ((scanRows rows).byHero.lookup hero).getD ∅ = merged (played hero rows) at members
      rw [← members]
      cases (scanRows rows).byHero.lookup hero with
      | none => exact List.Perm.nil
      | some members => exact iteration.perm (some hero) members

end Scanning

/-! ## Boards -/

section Boards

open LeaderboardSnapshot

variable {metric : Text} {aggs : List LeaderboardHeroAgg}
  {first second : MemberLeaderboardRow}

instance transCmp_order (metric : Text) : Std.TransCmp (order metric) := by
  unfold order
  split
  next => infer_instance
  next => split <;> infer_instance

theorem eq_of_compareLex {one other : MemberLeaderboardRow → MemberLeaderboardRow → Ordering}
    (same : compareLex one (compareLex other (compareOn MemberLeaderboardRow.memberId))
      first second = .eq) : first.memberId = second.memberId := by
  simp only [compareLex, compareOn, Ordering.then_eq_eq] at same
  exact Std.LawfulEqCmp.eq_of_compare same.2.2

/-- Rows that no comparison tells apart are of one member. -/
theorem memberId_of_order_eq (same : order metric first second = .eq) :
    first.memberId = second.memberId := by
  unfold order at same
  split at same
  next => exact eq_of_compareLex same
  next => split at same <;> exact eq_of_compareLex same

theorem member_unique {one other : LeaderboardHeroAgg} (one_mem : one ∈ (merged aggs).values)
    (other_mem : other ∈ (merged aggs).values) (same : one.memberId = other.memberId) :
    one = other := by
  rcases HashMap.mem_values.mp one_mem with ⟨key, found⟩
  rcases HashMap.mem_values.mp other_mem with ⟨key', found'⟩
  have keys : key = key' := by
    rw [← keyed_merged aggs _ _ found, same, keyed_merged aggs _ _ found']
  rw [keys, found'] at found
  exact (Option.some.inj found).symm

/-- The rows of a board before they are sorted. -/
def board (metric : Text) (members : List LeaderboardHeroAgg) : List MemberLeaderboardRow :=
  (members.filter (LeaderboardHeroAgg.ranked metric)).map LeaderboardHeroAgg.row

theorem mem_board {row : MemberLeaderboardRow} {members : List LeaderboardHeroAgg}
    (row_mem : row ∈ board metric members) : ∃ agg ∈ members, agg.row = row := by
  rcases List.mem_map.mp row_mem with ⟨agg, agg_mem, rfl⟩
  exact ⟨agg, List.mem_of_mem_filter agg_mem, rfl⟩

/-- Boards over the totals of the same members are sorted to one list. -/
theorem sortBy_board {members others : List LeaderboardHeroAgg}
    (totals : members.Perm (merged aggs).values) (perm : members.Perm others) :
    sortBy (order metric) (board metric members) = sortBy (order metric) (board metric others) := by
  refine sortBy_eq_of_perm ((perm.filter _).map _) ?_
  intro one one_mem other other_mem same
  rcases mem_board one_mem with ⟨agg, agg_mem, rfl⟩
  rcases mem_board other_mem with ⟨agg', agg_mem', rfl⟩
  rw [member_unique (totals.mem_iff.mp agg_mem) (totals.mem_iff.mp agg_mem')
    (memberId_of_order_eq same)]

theorem nodup_board {members : List LeaderboardHeroAgg}
    (totals : members.Perm (merged aggs).values) :
    ((board metric members).map MemberLeaderboardRow.memberId).Nodup := by
  have keys : (merged aggs).values.map LeaderboardHeroAgg.memberId = (merged aggs).keys := by
    rw [HashMap.values, List.map_map]
    apply List.map_congr_left
    rintro ⟨key, agg⟩ entry_mem
    exact keyed_merged aggs _ _ (AList.mem_lookup_iff.mpr entry_mem)
  have nodup : (members.map LeaderboardHeroAgg.memberId).Nodup := by
    rw [(totals.map _).nodup_iff, keys]
    exact (merged aggs).keys_nodup
  rw [board, List.map_map]
  exact nodup.sublist (List.filter_sublist.map _)

/-- The members of a board do not depend on the order of the rows. -/
theorem merged_values_perm {others : List LeaderboardHeroAgg} (perm : aggs.Perm others)
    (names : ∀ one ∈ aggs, ∀ other ∈ aggs, one.memberId = other.memberId →
      one.displayName = other.displayName) :
    (merged aggs).values.Perm (merged others).values := by
  apply HashMap.values_perm
  intro memberId
  rw [lookup_merged, lookup_merged]
  refine @foldl_mergeInto_perm _ _ memberId (perm.filter _) ?_ ?_
  · intro one one_mem
    simpa using (List.mem_filter.mp one_mem).2
  · intro one one_mem other other_mem
    rcases List.mem_filter.mp one_mem with ⟨one_mem, its_member⟩
    rcases List.mem_filter.mp other_mem with ⟨other_mem, its_member'⟩
    rw [beq_iff_eq] at its_member its_member'
    exact names one one_mem other other_mem (its_member.trans its_member'.symm)

end Boards

/-! ## The all-heroes board -/

section AllHeroes

variable {memberId : Text} {counter : Counter} {scan : Scan}

/-- A member's counter in a map; nobody's counter is zero. -/
def counterOf (memberId : Text) (counter : Counter) (members : HashMap Text LeaderboardHeroAgg) : U32 :=
  ((members.lookup memberId).map fun agg => agg.counter counter).getD 0

theorem counterOf_mergeAggOne {members : HashMap Text LeaderboardHeroAgg}
    {agg : LeaderboardHeroAgg} : counterOf memberId counter (mergeAggOne members agg) =
      counterOf memberId counter members +
        if memberId = agg.memberId then agg.counter counter else 0 := by
  unfold counterOf
  rw [lookup_mergeAggOne]
  split
  next same =>
    rw [mergeInto, same]
    cases members.lookup agg.memberId with
    | none => simp
    | some existing => simp [LeaderboardHeroAgg.counter_merge]
  next => simp

/-- A row adds the same to the totals of all heroes and to those of one. -/
theorem counterOf_add (row : Text × LeaderboardHeroAgg)
    (totals : counterOf memberId counter scan.all =
      HashMap.sumOf (counterOf memberId counter) scan.byHero) :
    counterOf memberId counter (scan.add row).all =
      HashMap.sumOf (counterOf memberId counter) (scan.add row).byHero := by
  unfold Scan.add
  split
  next => exact totals
  next =>
    simp only
    rw [counterOf_mergeAggOne, totals, HashMap.sumOf_insert, counterOf_mergeAggOne]
    cases found : scan.byHero.lookup row.1 with
    | none =>
        rw [HashMap.sumOf_erase_of_none _ found, Option.getD_none]
        have nobody : counterOf memberId counter ∅ = 0 := rfl
        rw [nobody, zero_add, add_comm]
    | some members =>
        rw [HashMap.sumOf_of_lookup _ found, Option.getD_some]
        exact add_right_comm _ _ _

theorem sum_filter {items : List LeaderboardHeroAgg} :
    ((items.filter fun agg => agg.memberId == memberId).map fun agg => agg.counter counter).sum =
      (items.map fun agg => if agg.memberId = memberId then agg.counter counter else 0).sum := by
  induction items with
  | nil => rfl
  | cons agg items ih =>
      rw [List.filter_cons, List.map_cons, List.sum_cons, ← ih]
      by_cases same : agg.memberId = memberId <;> simp [same]

/-- The entry of a member is all there is of the member in a map. -/
theorem sum_values {members : HashMap Text LeaderboardHeroAgg} (keyed : Keyed members) :
    ((members.values.filter fun agg => agg.memberId == memberId).map
      fun agg => agg.counter counter).sum = counterOf memberId counter members := by
  have others : ∀ map : HashMap Text LeaderboardHeroAgg, map.lookup memberId = none →
      (∀ key agg, map.lookup key = some agg → agg.memberId = key) →
      HashMap.sumOf (fun agg => if agg.memberId = memberId then agg.counter counter else 0) map =
        0 := by
    intro map absent keyed
    refine List.sum_eq_zero ?_
    intro word word_mem
    rcases List.mem_map.mp word_mem with ⟨agg, agg_mem, rfl⟩
    rcases HashMap.mem_values.mp agg_mem with ⟨key, found⟩
    rw [if_neg]
    rintro rfl
    rw [keyed key agg found, found] at absent
    cases absent
  rw [sum_filter]
  change HashMap.sumOf (fun agg => if agg.memberId = memberId then agg.counter counter else 0)
    members = _
  unfold counterOf
  cases found : members.lookup memberId with
  | none => exact others members found keyed
  | some agg =>
      rw [HashMap.sumOf_of_lookup _ found, if_pos (keyed _ _ found), others, add_zero]
      · rfl
      · rw [HashMap.lookup_erase', if_pos rfl]
      · intro key other there
        rw [HashMap.lookup_erase'] at there
        split at there
        next => cases there
        next => exact keyed key other there

/-- What the two maps of a scan have in common. -/
structure Consistent (scan : Scan) : Prop where
  keyed : ∀ hero members, scan.byHero.lookup hero = some members → Keyed members
  listed : ∀ hero members, scan.byHero.lookup hero = some members →
    ∀ memberId, members.lookup memberId ≠ none → scan.all.lookup memberId ≠ none
  totals : ∀ memberId counter, counterOf memberId counter scan.all =
    HashMap.sumOf (counterOf memberId counter) scan.byHero

theorem lookup_mergeAggOne_ne_none {members : HashMap Text LeaderboardHeroAgg}
    {agg : LeaderboardHeroAgg} : (mergeAggOne members agg).lookup memberId ≠ none ↔
      memberId = agg.memberId ∨ members.lookup memberId ≠ none := by
  rw [lookup_mergeAggOne]
  split
  next same => simp [same, mergeInto]
  next other => simp [other]

theorem consistent_add (row : Text × LeaderboardHeroAgg) (consistent : Consistent scan) :
    Consistent (scan.add row) := by
  refine ⟨?_, ?_, fun memberId counter => counterOf_add row (consistent.totals memberId counter)⟩
  · intro hero members found
    unfold Scan.add at found
    split at found
    next => exact consistent.keyed hero members found
    next =>
      rw [HashMap.lookup_insert'] at found
      split at found
      next =>
        rcases Option.some.inj found with rfl
        apply keyed_mergeAggOne
        cases there : scan.byHero.lookup row.1 with
        | none => exact keyed_empty
        | some existing => exact consistent.keyed _ _ there
      next => exact consistent.keyed hero members found
  · intro hero members found memberId present
    unfold Scan.add at found ⊢
    split at found
    next unplayed =>
      rw [if_pos unplayed]
      exact consistent.listed hero members found memberId present
    next counted =>
      rw [if_neg counted, lookup_mergeAggOne_ne_none]
      rw [HashMap.lookup_insert'] at found
      split at found
      next =>
        rcases Option.some.inj found with rfl
        rcases lookup_mergeAggOne_ne_none.mp present with same | before
        · exact .inl same
        · cases there : scan.byHero.lookup row.1 with
          | none =>
              rw [there, Option.getD_none] at before
              exact absurd rfl before
          | some existing =>
              rw [there, Option.getD_some] at before
              exact .inr (consistent.listed _ _ there memberId before)
      next => exact .inr (consistent.listed hero members found memberId present)

theorem consistent_scanRows (rows : List (Text × LeaderboardHeroAgg)) :
    Consistent (scanRows rows) := by
  unfold scanRows
  have start : Consistent ⟨∅, ∅⟩ := by
    refine ⟨?_, ?_, fun _ _ => rfl⟩
    · intro hero members found
      cases found
    · intro hero members found
      cases found
  generalize (⟨∅, ∅⟩ : Scan) = scan at start
  induction rows generalizing scan with
  | nil => exact start
  | cons row rows ih => exact ih _ (consistent_add row start)

theorem keyed_all (rows : List (Text × LeaderboardHeroAgg)) : Keyed (scanRows rows).all := by
  rw [scanRows, all_foldl]
  exact keyed_merged _

/-- A member's counter on the boards of single heroes, added up. -/
def heroesTotal (snapshot : LeaderboardSnapshot) (memberId : Text) (counter : Counter) : U32 :=
  ((snapshot.byHero.values.flatten.filter fun agg => agg.memberId == memberId).map
    fun agg => agg.counter counter).sum

theorem heroesTotal_fromRows (iteration : Iteration) (rows : List (Text × LeaderboardHeroAgg)) :
    heroesTotal (.fromRows iteration rows) memberId counter =
      counterOf memberId counter (scanRows rows).all := by
  rw [(consistent_scanRows rows).totals]
  have keyed := (consistent_scanRows rows).keyed
  simp only [heroesTotal, LeaderboardSnapshot.fromRows, HashMap.sumOf, HashMap.values,
    HashMap.mapValues, List.map_map, List.filter_flatten, List.map_flatten, List.sum_flatten]
  congr 1
  apply List.map_congr_left
  rintro ⟨hero, members⟩ entry_mem
  have sums := @sum_values memberId counter members
    (keyed hero members (AList.mem_lookup_iff.mpr entry_mem))
  exact (((iteration.perm (some hero) members).filter _).map _).sum_eq.trans sums

end AllHeroes

theorem played_hero {hero : Text} (named : hero ≠ []) (rows : List (Text × LeaderboardHeroAgg)) :
    played [] (rows.filter fun row => row.1 == hero) = played hero rows := by
  unfold played
  rw [List.filter_filter]
  congr 1
  apply List.filter_congr
  intro row _
  have not_empty : hero.isEmpty = false := List.isEmpty_eq_false_iff.mpr named
  simp [not_empty]

section Rows

variable {rows others : List (Text × LeaderboardHeroAgg)}

/-- Rows of one member have one display name. -/
def SameNames (rows : List (Text × LeaderboardHeroAgg)) : Prop :=
  ∀ one ∈ rows, ∀ other ∈ rows, one.2.memberId = other.2.memberId →
    one.2.displayName = other.2.displayName

theorem names_played (names : SameNames rows) (hero : Text) :
    ∀ one ∈ played hero rows, ∀ other ∈ played hero rows, one.memberId = other.memberId →
      one.displayName = other.displayName := by
  intro one one_mem other other_mem same
  rcases List.mem_map.mp one_mem with ⟨row, row_mem, rfl⟩
  rcases List.mem_map.mp other_mem with ⟨row', row_mem', rfl⟩
  exact names row (List.mem_of_mem_filter row_mem) row' (List.mem_of_mem_filter row_mem') same

open LeaderboardSnapshot in
theorem project_eq (first second : Iteration) (metric : Text) {hero other : Text} (limit : ℕ)
    (names : SameNames rows) (perm : (played hero rows).Perm (played other others)) :
    (fromRows first rows).project metric hero limit =
      (fromRows second others).project metric other limit := by
  have totals := source_perm first rows hero
  have same := totals.trans ((merged_values_perm perm (names_played names hero)).trans
    (source_perm second others other).symm)
  exact congrArg (List.take limit) (sortBy_board totals same)

end Rows

section Tied

def inEntryOrder : Iteration where
  intoValues _ map := map.values
  perm _ _ := List.Perm.refl _

def aggOf (member : Char) (games wins : ℕ) : LeaderboardHeroAgg where
  memberId := [member]
  displayName := [member]
  games := .ofNat games
  wins := .ofNat wins
  elims := .ofNat wins
  deaths := .ofNat 1
  kdGames := .ofNat games

/-- Two members with the same totals, in both orders. -/
def tiedRows : List (Text × LeaderboardHeroAgg) :=
  [("Ana".toList, aggOf 'z' 8 4), ("Ana".toList, aggOf 'a' 8 4)]

end Tied

end ScuffedCrew.Leaderboard
