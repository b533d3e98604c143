import Mathlib.Data.List.Perm.Basic
import ScuffedCrew.DirectMessages.Thread
import ScuffedCrew.Rust.Lists

/-!
# A thread read to its end

The pages of a thread together hold every message of the conversation once,
unless a page ends between two messages of one second or a stored content can no
longer be told from a sealed one.
-/

namespace ScuffedCrew.DirectMessages

open Rust Database

universe u

variable {Time : Type u} {site : Site}

/-- A call leaves a row if its content can be sealed and no call before it had its gift wrap. -/
def keep (site : Site) (earlier : List (Delivery Time)) (delivery : Delivery Time) :
    List (Delivery Time) :=
  match sealDmContent site delivery.content delivery.giftWrapId delivery.key with
  | .error _ => earlier
  | .ok _ =>
      if delivery.giftWrapId ∈ earlier.map Delivery.giftWrapId then earlier
      else earlier ++ [delivery]

/-- The calls that left a row. -/
def kept (site : Site) (deliveries : List (Delivery Time)) : List (Delivery Time) :=
  deliveries.foldl (keep site) []

/-- The messages between two keys, in the clear. -/
def messagesBetween (site : Site) (deliveries : List (Delivery Time))
    (mePubkey peerPubkey : Text) : List (DmMessage Time) :=
  ((kept site deliveries).filter fun delivery =>
    delivery.key == conversationKey mePubkey peerPubkey).map fun delivery =>
      delivery.message delivery.content

theorem messagesBetween_comm (site : Site) (deliveries : List (Delivery Time))
    (mePubkey peerPubkey : Text) : messagesBetween site deliveries mePubkey peerPubkey =
      messagesBetween site deliveries peerPubkey mePubkey := by
  simp only [messagesBetween, conversationKey_comm mePubkey peerPubkey]

/-- A content that is stored as it is must not look like a sealed one. -/
def Readable (site : Site) (content : Text) : Prop :=
  site.crypto.isSome ∨ dmEncPrefix.isPrefixOf content = false

/-- The row that a call leaves. -/
def Leaves (site : Site) (row : DmMessage Time) (delivery : Delivery Time) : Prop :=
  ∃ body, sealDmContent site delivery.content delivery.giftWrapId delivery.key = .ok body ∧
    row = delivery.message body

section Contents

variable {plaintext giftWrapId convKey body : Text}

/-- What is opened is what was sealed. -/
theorem openDmContent_sealed (was_sealed : sealDmContent site plaintext giftWrapId convKey = .ok body)
    (readable : Readable site plaintext) :
    openDmContent site body giftWrapId convKey = .ok plaintext := by
  unfold sealDmContent at was_sealed
  cases key : site.crypto with
  | some crypto =>
      simp only [key] at was_sealed
      cases encrypted : crypto.encrypt plaintext (dmContentAad giftWrapId convKey) with
      | error error => simp [encrypted] at was_sealed
      | ok json =>
          simp only [encrypted, Except.ok.injEq] at was_sealed
          subst was_sealed
          simp [openDmContent, key, crypto.decrypts encrypted]
  | none =>
      have plain : dmEncPrefix.isPrefixOf plaintext = false := by
        simpa [Readable, key] using readable
      simp only [key] at was_sealed
      split at was_sealed
      next => cases was_sealed
      next development =>
          simp only [Except.ok.injEq] at was_sealed
          subst was_sealed
          simp [openDmContent, plain, development]

theorem openDmContent_of_not_readable
    (was_sealed : sealDmContent site plaintext giftWrapId convKey = .ok body)
    (unreadable : ¬ Readable site plaintext) :
    ∃ error, openDmContent site body giftWrapId convKey = .error error := by
  simp only [Readable, not_or, Bool.not_eq_false, Option.not_isSome_iff_eq_none] at unreadable
  rcases unreadable with ⟨no_key, looks_sealed⟩
  unfold sealDmContent at was_sealed
  simp only [no_key] at was_sealed
  split at was_sealed
  next => cases was_sealed
  next =>
      simp only [Except.ok.injEq] at was_sealed
      subst was_sealed
      simp [openDmContent, looks_sealed, no_key]

end Contents

section Rows

variable {row : DmMessage Time} {delivery : Delivery Time} {deliveries : List (Delivery Time)}

theorem dbToDm_of_leaves (leaves : Leaves site row delivery)
    (readable : Readable site delivery.content) :
    dbToDm site row = .ok (delivery.message delivery.content) := by
  rcases leaves with ⟨body, was_sealed, rfl⟩
  simp [dbToDm, Delivery.message, openDmContent_sealed was_sealed readable]

theorem readable_of_dbToDm {message : DmMessage Time} (leaves : Leaves site row delivery)
    (opened : dbToDm site row = .ok message) : Readable site delivery.content := by
  rcases leaves with ⟨body, was_sealed, rfl⟩
  by_contra unreadable
  rcases openDmContent_of_not_readable was_sealed unreadable with ⟨error, refused⟩
  simp [dbToDm, Delivery.message, refused] at opened

theorem createdAt_of_dbToDm {message : DmMessage Time} (opened : dbToDm site row = .ok message) :
    message.createdAt = row.createdAt := by
  unfold dbToDm at opened
  split at opened
  next => simp [← Except.ok.inj opened]
  next => cases opened

end Rows

section Rows

variable {table : DmTable Time} {row : DmMessage Time} {delivery : Delivery Time}
  {earlier deliveries : List (Delivery Time)} {mePubkey peerPubkey : Text}

theorem giftWrapIds_eq (rows : List.Forall₂ (Leaves site) table.rows earlier) :
    table.rows.map DmMessage.giftWrapId = earlier.map Delivery.giftWrapId := by
  rw [← List.forall₂_eq_eq_eq, List.forall₂_map_left_iff, List.forall₂_map_right_iff]
  refine rows.imp ?_
  rintro row delivery ⟨body, -, rfl⟩
  rfl

theorem leaves_insertDmMessage (rows : List.Forall₂ (Leaves site) table.rows earlier) :
    List.Forall₂ (Leaves site) (insertDmMessage site table delivery).2.rows
      (keep site earlier delivery) := by
  unfold insertDmMessage keep
  rw [← giftWrapIds_eq rows]
  cases was_sealed : sealDmContent site delivery.content delivery.giftWrapId delivery.key with
  | error error => exact rows
  | ok body =>
      cases found : table.rows.find? fun row => row.giftWrapId == delivery.giftWrapId with
      | some first =>
          have same : first.giftWrapId = delivery.giftWrapId := by
            simpa using List.find?_some (p := fun row : DmMessage Time => _) found
          have taken : delivery.giftWrapId ∈ table.rows.map DmMessage.giftWrapId :=
            List.mem_map.mpr ⟨first, List.mem_of_find?_eq_some found, same⟩
          simp only [taken, if_true]
          exact rows
      | none =>
          have free : delivery.giftWrapId ∉ table.rows.map DmMessage.giftWrapId := by
            simpa using found
          cases created : table.create (delivery.message body) with
          | none =>
              rcases Indexed.create_eq_none.mp created with ⟨row, row_mem, same⟩
              exact absurd (List.mem_map.mpr ⟨row, row_mem, same⟩) free
          | some after =>
              simp only [created, free, if_false, Indexed.rows_create created]
              exact List.rel_append rows
                (List.Forall₂.cons ⟨body, was_sealed, rfl⟩ List.Forall₂.nil)

theorem leaves_tableAfter (deliveries : List (Delivery Time)) :
    List.Forall₂ (Leaves site) (tableAfter site deliveries).rows (kept site deliveries) := by
  unfold tableAfter kept
  suffices ∀ (table : DmTable Time) earlier, List.Forall₂ (Leaves site) table.rows earlier →
      List.Forall₂ (Leaves site)
        (deliveries.foldl (fun table delivery => (insertDmMessage site table delivery).2)
          table).rows
        (deliveries.foldl (keep site) earlier) from this _ _ List.Forall₂.nil
  induction deliveries with
  | nil => exact fun _ _ rows => rows
  | cons delivery deliveries ih =>
      intro table earlier rows
      exact ih _ _ (leaves_insertDmMessage rows)

/-- The rows of a conversation are those of the calls with its two keys. -/
theorem leaves_conversation (deliveries : List (Delivery Time)) (mePubkey peerPubkey : Text) :
    List.Forall₂ (Leaves site) (conversation (tableAfter site deliveries) mePubkey peerPubkey)
      ((kept site deliveries).filter fun delivery =>
        delivery.key == conversationKey mePubkey peerPubkey) := by
  refine List.rel_filter ?_ (leaves_tableAfter deliveries)
  rintro row delivery ⟨body, -, rfl⟩
  rfl

theorem createdAt_of_collect {rows messages : List (DmMessage Time)}
    (collected : rows.mapM (dbToDm site) = .ok messages) :
    rows.map DmMessage.createdAt = messages.map DmMessage.createdAt := by
  rw [← List.forall₂_eq_eq_eq, List.forall₂_map_left_iff, List.forall₂_map_right_iff]
  exact (collect_eq_ok.mp collected).imp fun _ _ opened => (createdAt_of_dbToDm opened).symm

theorem opens_of_readable {rows : List (DmMessage Time)}
    (leaves : List.Forall₂ (Leaves site) rows deliveries)
    (readable : ∀ delivery ∈ deliveries, Readable site delivery.content) :
    List.Forall₂ (fun row message => dbToDm site row = .ok message) rows
      (deliveries.map fun delivery => delivery.message delivery.content) := by
  induction leaves with
  | nil => exact List.Forall₂.nil
  | cons first rest ih =>
      rcases List.forall_mem_cons.mp readable with ⟨readable_first, readable_rest⟩
      exact List.Forall₂.cons (dbToDm_of_leaves first readable_first) (ih readable_rest)

theorem readable_of_opens {rows messages : List (DmMessage Time)}
    (leaves : List.Forall₂ (Leaves site) rows deliveries)
    (opens : List.Forall₂ (fun row message => dbToDm site row = .ok message) rows messages) :
    ∀ delivery ∈ deliveries, Readable site delivery.content := by
  induction leaves generalizing messages with
  | nil => simp
  | cons first rest ih =>
      cases opens with
      | cons opened later =>
          exact List.forall_mem_cons.mpr ⟨readable_of_dbToDm first opened, ih later⟩

/-- The messages were sent at the times of the rows of their conversation. -/
theorem keysNewestFirst_messagesBetween [LinearOrder Time] (deliveries : List (Delivery Time)) :
    keysNewestFirst DmMessage.createdAt
        (conversation (tableAfter site deliveries) mePubkey peerPubkey) =
      keysNewestFirst DmMessage.createdAt
        (messagesBetween site deliveries mePubkey peerPubkey) := by
  unfold keysNewestFirst
  congr 1
  rw [← List.forall₂_eq_eq_eq, List.forall₂_map_left_iff, List.forall₂_map_right_iff,
    messagesBetween, List.forall₂_map_right_iff]
  refine (leaves_conversation deliveries mePubkey peerPubkey).imp ?_
  rintro row delivery ⟨body, -, rfl⟩
  rfl

end Rows

section Reading

variable [LinearOrder Time] {engine : NewestFirst (@DmMessage.createdAt Time)}
  {table : DmTable Time} {mePubkey peerPubkey : Text} {limit : ℕ}

/-- Reading the thread opens the rows of the pages one after the other. -/
theorem readThread_eq {fuel : ℕ} {beforeTs : Option Time} {rows : List (DmMessage Time)}
    (pages : engine.readPages limit (conversation table mePubkey peerPubkey) fuel beforeTs =
      some rows) :
    readThread site engine table mePubkey peerPubkey limit fuel beforeTs =
      some (rows.mapM (dbToDm site)) := by
  induction fuel generalizing beforeTs rows with
  | zero => cases pages
  | succ fuel ih =>
      simp only [readThread, listDmThread, NewestFirst.readPages] at pages ⊢
      generalize engine.page limit (conversation table mePubkey peerPubkey) beforeTs = page at pages
      cases is_last : page.getLast? with
      | none =>
          rcases List.getLast?_eq_none_iff.mp is_last with rfl
          simp only [List.getLast?_nil, Option.some.injEq] at pages
          subst pages
          rfl
      | some last =>
          simp only [is_last, Option.map_eq_some_iff] at pages
          rcases pages with ⟨rest, rest_pages, rfl⟩
          rw [collect_append]
          cases collected : page.mapM (dbToDm site) with
          | error error => rfl
          | ok messages =>
              have same_last := congrArg List.getLast? (createdAt_of_collect collected).symm
              rw [List.getLast?_map, List.getLast?_map, is_last, Option.map_some,
                Option.map_eq_some_iff] at same_last
              rcases same_last with ⟨message, last_message, same_time⟩
              simp only [last_message, same_time, ih rest_pages, Option.map_some, Except.bind]

/-- The thread is the rows of its pages, opened. -/
theorem readWholeThread_eq (limit_pos : 0 < limit) :
    ∃ rows : List (DmMessage Time), readWholeThread site engine table mePubkey peerPubkey limit =
        some (rows.mapM (dbToDm site)) ∧
      rows.Pairwise (fun newer older => older.createdAt ≤ newer.createdAt) ∧
      rows.Subperm (conversation table mePubkey peerPubkey) ∧
      (rows.Perm (conversation table mePubkey peerPubkey) ↔
        CutsBetween limit
          (keysNewestFirst DmMessage.createdAt (conversation table mePubkey peerPubkey))) := by
  have all : below DmMessage.createdAt none (conversation table mePubkey peerPubkey) =
      conversation table mePubkey peerPubkey := by
    simp [below]
  rcases engine.readPages_spec limit_pos
    (show (below DmMessage.createdAt none (conversation table mePubkey peerPubkey)).length <
      (conversation table mePubkey peerPubkey).length + 1 by rw [all]; omega) with
    ⟨rows, pages, sorted, some_rows, whole⟩
  rw [all] at some_rows whole
  exact ⟨rows, readThread_eq pages, sorted, some_rows, whole⟩

end Reading

/-- **The pages of a thread are every message of the conversation once, newest first, exactly when
no page ends between two messages of one time and every content stored in the clear can be read
back.** -/
theorem thread_is_complete_iff [LinearOrder Time] (site : Site)
    (engine : NewestFirst (@DmMessage.createdAt Time)) (deliveries : List (Delivery Time))
    (mePubkey peerPubkey : Text) (limit : ℕ) (limit_pos : 0 < limit) :
    ∃ answer, readWholeThread site engine (tableAfter site deliveries) mePubkey peerPubkey limit =
        some answer ∧
      ((∃ read, answer = .ok read ∧
          read.Perm (messagesBetween site deliveries mePubkey peerPubkey) ∧
          read.Pairwise fun newer older => older.createdAt ≤ newer.createdAt) ↔
        CutsBetween limit (keysNewestFirst DmMessage.createdAt
          (messagesBetween site deliveries mePubkey peerPubkey)) ∧
        ∀ message ∈ messagesBetween site deliveries mePubkey peerPubkey,
          Readable site message.content) := by
  have leaves := @leaves_conversation Time site deliveries mePubkey peerPubkey
  rcases @readWholeThread_eq Time site _ engine (tableAfter site deliveries) mePubkey peerPubkey
    limit limit_pos with ⟨rows, answered, sorted, some_rows, whole⟩
  refine ⟨_, answered, ?_⟩
  rw [← keysNewestFirst_messagesBetween, ← whole]
  constructor
  · rintro ⟨read, collected, perm, -⟩
    have opens := collect_eq_ok.mp collected
    have all_rows : rows.Perm (conversation (tableAfter site deliveries) mePubkey peerPubkey) := by
      apply some_rows.perm_of_length_le
      rw [opens.length_eq, perm.length_eq, leaves.length_eq, messagesBetween, List.length_map]
    refine ⟨all_rows, ?_⟩
    rcases List.perm_comp_forall₂ all_rows.symm opens with ⟨messages, opens_all, -⟩
    rw [messagesBetween, List.forall_mem_map]
    exact readable_of_opens leaves opens_all
  · rintro ⟨all_rows, readable⟩
    rw [messagesBetween, List.forall_mem_map] at readable
    rcases List.perm_comp_forall₂ all_rows (opens_of_readable leaves readable) with
      ⟨read, opens, perm⟩
    have collected := collect_eq_ok.mpr opens
    have times : (rows.map DmMessage.createdAt).Pairwise fun newer older => older ≤ newer :=
      List.pairwise_map.mpr sorted
    rw [createdAt_of_collect collected] at times
    exact ⟨read, collected, perm, List.pairwise_map.mp times⟩

section Seconds

def stableEngine : NewestFirst (@DmMessage.createdAt ℕ) where
  order rows := rows.insertionSort fun newer older => older.createdAt ≤ newer.createdAt
  perm rows := List.perm_insertionSort _ rows
  sorted rows := List.pairwise_insertionSort _ rows

def atSecond (giftWrapId : Char) (createdAt : ℕ) : Delivery ℕ where
  giftWrapId := [giftWrapId]
  senderPubkey := ['a']
  recipientPubkey := ['b']
  content := ['h', 'i']
  replyToEventId := none
  createdAt

theorem thread_is_complete_two_seconds :
    ∃ answer, readWholeThread ⟨none, false⟩ stableEngine
        (tableAfter ⟨none, false⟩ [atSecond '1' 5, atSecond '2' 6]) ['b'] ['a'] 1 = some answer ∧
      ((∃ read, answer = .ok read ∧
          read.Perm (messagesBetween ⟨none, false⟩ [atSecond '1' 5, atSecond '2' 6] ['b'] ['a']) ∧
          read.Pairwise fun newer older => older.createdAt ≤ newer.createdAt) ↔
        CutsBetween 1 (keysNewestFirst DmMessage.createdAt
          (messagesBetween ⟨none, false⟩ [atSecond '1' 5, atSecond '2' 6] ['b'] ['a'])) ∧
        ∀ message ∈ messagesBetween ⟨none, false⟩ [atSecond '1' 5, atSecond '2' 6] ['b'] ['a'],
          Readable ⟨none, false⟩ message.content) :=
  thread_is_complete_iff ⟨none, false⟩ stableEngine [atSecond '1' 5, atSecond '2' 6] ['b'] ['a'] 1
    Nat.one_pos

/-- Two messages of one second, read one by one: the second is on no page. -/
theorem second_message_is_lost :
    ¬ ∃ read, readWholeThread ⟨none, false⟩ stableEngine
        (tableAfter ⟨none, false⟩ [atSecond '1' 5, atSecond '2' 5]) ['a'] ['b'] 1 =
          some (.ok read) ∧
      read.Perm (messagesBetween ⟨none, false⟩ [atSecond '1' 5, atSecond '2' 5] ['a'] ['b']) := by
  rintro ⟨read, answered, perm⟩
  have one : readWholeThread ⟨none, false⟩ stableEngine
      (tableAfter ⟨none, false⟩ [atSecond '1' 5, atSecond '2' 5]) ['a'] ['b'] 1 =
        some (.ok [(atSecond '1' 5).message ['h', 'i']]) := by
    decide
  rw [one, Option.some.injEq, Except.ok.injEq] at answered
  subst answered
  have two : (messagesBetween ⟨none, false⟩ [atSecond '1' 5, atSecond '2' 5] ['a'] ['b']).length =
      2 := by
    decide
  have lengths := perm.length_eq
  rw [two] at lengths
  cases lengths

end Seconds

end ScuffedCrew.DirectMessages
