import ScuffedCrew.Database.Table
import ScuffedCrew.Rust.Text
import ScuffedCrew.StateMachine.Pool

/-!
# Updates of wiki pages

An update reads the page, replaces its content and records the content it read
as a revision, in three statements.  Other updates of the page go on between
any two of them.  A base version makes the second statement a compare-and-swap.
-/

namespace ScuffedCrew.Wiki

open Rust Database StateMachine

structure WikiPage where
  topic : Text
  title : Text
  contentMarkdown : Text
  authorMemberId : Text
  createdAt : ℕ
  updatedAt : ℕ
  isActive : Bool

structure WikiRevision where
  pageId : ℕ
  contentMarkdown : Text
  editedBy : Text
  editedAt : ℕ
  revisionNote : Option Text

inductive DbError
  | notFound (message : Text)
  | conflict (message : Text)

/-- The tables, and the last time the database's clock gave. -/
structure WikiStore where
  pages : Table WikiPage
  revisions : Table WikiRevision
  now : ℕ

/-- What the clocks of the database and of the caller show at a statement. -/
structure Clocks where
  database : ℕ
  utc : ℕ

structure UpdateRequest where
  topic : Text
  contentMarkdown : Text
  editedBy : Text
  revisionNote : Option Text
  prevUpdatedAt : Option ℕ

namespace UpdateRequest

variable (request : UpdateRequest)

def selects (row : Record WikiPage) : Bool :=
  row.value.topic == request.topic && row.value.isActive

/-- `WHERE updated_at = $prev`, when there is a base version. -/
def accepts (page : WikiPage) : Bool :=
  request.prevUpdatedAt.all fun prev => page.updatedAt == prev

def write (now : ℕ) (page : WikiPage) : WikiPage :=
  { page with contentMarkdown := request.contentMarkdown, updatedAt := now }

def notFound : DbError :=
  .notFound ("Wiki page '".toList ++ request.topic ++ "' not found".toList)

/-- The error of an update that selects no row. -/
def missed : DbError :=
  match request.prevUpdatedAt with
  | some _ =>
      .conflict ("Wiki page '".toList ++ request.topic ++ "' was modified by another editor".toList)
  | none => .notFound ("Wiki page '".toList ++ request.topic ++ "' not found after update".toList)

/-- The revision of the content the call has read. -/
def revision (page : Record WikiPage) (now : ℕ) : WikiRevision :=
  ⟨page.id, page.value.contentMarkdown, request.editedBy, now, request.revisionNote⟩

end UpdateRequest

/-- A call of `update_wiki_page`, by the statement it makes next. -/
inductive UpdateCall
  | select (request : UpdateRequest)
  | update (request : UpdateRequest) (page : Record WikiPage)
  | createRevision (request : UpdateRequest) (page updated : Record WikiPage)
  | returned (request : UpdateRequest) (answer : Except DbError (Record WikiPage))

namespace UpdateCall

/-- Every time the database gives is later than the one before. -/
def step (store : WikiStore) : UpdateCall → Clocks → Option (WikiStore × UpdateCall)
  | select request, _ =>
      match store.pages.rows.find? request.selects with
      | none => some (store, returned request (.error request.notFound))
      | some page => some (store, update request page)
  | update request page, clocks =>
      if clocks.database ≤ store.now then none
      else
        match (store.pages.get? page.id).filter request.accepts with
        | none =>
            some ({ store with now := clocks.database },
              returned request (.error request.missed))
        | some tip =>
            some ({ store with
                    pages := store.pages.updateWhere
                      (fun row => row.id == page.id && request.accepts row.value)
                      (request.write clocks.database)
                    now := clocks.database },
              createRevision request page ⟨page.id, request.write clocks.database tip⟩)
  | createRevision request page updated, clocks =>
      some ({ store with
              revisions := store.revisions.create (request.revision page clocks.utc) },
        returned request (.ok updated))
  | returned _ _, _ => none

/-- The call has made no statement. -/
def Fresh : UpdateCall → Prop
  | select _ => True
  | _ => False

def Returned : UpdateCall → Prop
  | returned _ _ => True
  | _ => False

instance decidableFresh : DecidablePred Fresh
  | select _ => .isTrue trivial
  | update _ _ => .isFalse id
  | createRevision _ _ _ => .isFalse id
  | returned _ _ => .isFalse id

instance decidableReturned : DecidablePred Returned
  | returned _ _ => .isTrue trivial
  | select _ => .isFalse id
  | update _ _ => .isFalse id
  | createRevision _ _ _ => .isFalse id

/-- The call replaces what its own read has not seen: it has no base version, or one that is newer
than the page it read, and the page holds another content by now. -/
def replacesUnread (store : WikiStore) (pageId : ℕ) : UpdateCall → Bool
  | update request page =>
      page.id == pageId && request.prevUpdatedAt.all (fun prev => page.value.updatedAt < prev) &&
        (store.pages.get? pageId).any fun tip =>
          request.accepts tip && tip.contentMarkdown != page.value.contentMarkdown
  | _ => false

end UpdateCall

def concurrentUpdates : Machine (Pool WikiStore UpdateCall) (Turn Clocks) :=
  interleaving UpdateCall.step

abbrev UpdateStep := Step (Pool WikiStore UpdateCall) (Turn Clocks)

namespace WikiStore

variable (store : WikiStore) (pageId : ℕ)

def content? : Option Text := (store.pages.get? pageId).map WikiPage.contentMarkdown

def version? : Option ℕ := (store.pages.get? pageId).map WikiPage.updatedAt

/-- The contents in the revisions of a page. -/
def recorded : List Text :=
  (store.revisions.rows.filter fun row => row.value.pageId == pageId).map
    fun row => row.value.contentMarkdown

end WikiStore

namespace UpdateStep

variable (step : UpdateStep) (pageId : ℕ)

/-- The content of the version the step gives the page. -/
def written? : Option Text :=
  if step.before.shared.version? pageId = step.after.shared.version? pageId then none
  else step.after.shared.content? pageId

/-- The step replaces no content that its call has not read. -/
def ReplacesRead : Prop :=
  ∀ call ∈ step.before.processes[step.event.process]?,
    call.replacesUnread step.before.shared pageId = false

end UpdateStep

/-- The contents a page holds in a run, one for each of its versions. -/
def contentsHeld (pageId : ℕ) (start : Pool WikiStore UpdateCall) (steps : List UpdateStep) :
    List Text :=
  (start.shared.content? pageId).toList ++ steps.filterMap fun step => step.written? pageId

/-- Every content the page has held, other than the current one, has one revision. -/
def HistoryComplete (pageId : ℕ) (start : Pool WikiStore UpdateCall) (steps : List UpdateStep)
    (final : Pool WikiStore UpdateCall) : Prop :=
  ((final.shared.content? pageId).toList ++ final.shared.recorded pageId).Perm
    (start.shared.recorded pageId ++ contentsHeld pageId start steps)

/-! ## What a step does -/

/-- What a step does to the tables. -/
inductive Updates (store : WikiStore) (call : UpdateCall) (clocks : Clocks) :
    WikiStore → UpdateCall → Prop
  | misses (request : UpdateRequest) (error : DbError) (now : ℕ) (later : store.now ≤ now)
      (calling : call = .select request ∨ ∃ page, call = .update request page ∧
        (store.pages.get? page.id).filter request.accepts = none) :
      Updates store call clocks { store with now } (.returned request (.error error))
  | reads (request : UpdateRequest) (page : Record WikiPage) (at_select : call = .select request)
      (found : store.pages.get? page.id = some page.value) :
      Updates store call clocks store (.update request page)
  | lands (request : UpdateRequest) (page : Record WikiPage) (tip : WikiPage)
      (at_update : call = .update request page) (later : store.now < clocks.database)
      (found : store.pages.get? page.id = some tip) (accepted : request.accepts tip = true) :
      Updates store call clocks
        { store with
          pages := store.pages.updateWhere
            (fun row => row.id == page.id && request.accepts row.value)
            (request.write clocks.database)
          now := clocks.database }
        (.createRevision request page ⟨page.id, request.write clocks.database tip⟩)
  | records (request : UpdateRequest) (page updated : Record WikiPage)
      (at_create : call = .createRevision request page updated) :
      Updates store call clocks
        { store with revisions := store.revisions.create (request.revision page clocks.utc) }
        (.returned request (.ok updated))

theorem updates_of_step {store after : WikiStore} {call moved : UpdateCall} {clocks : Clocks}
    (taken : call.step store clocks = some (after, moved)) :
    Updates store call clocks after moved := by
  cases call with
  | select request =>
      simp only [UpdateCall.step] at taken
      split at taken <;> rcases Prod.mk.inj (Option.some.inj taken) with ⟨rfl, rfl⟩
      next => exact .misses request _ store.now le_rfl (.inl rfl)
      next page found =>
        exact .reads request page rfl (Table.mem_rows_iff.mp (List.mem_of_find?_eq_some found))
  | update request page =>
      simp only [UpdateCall.step] at taken
      split at taken
      next => cases taken
      next later =>
        have later := Nat.lt_of_not_le later
        split at taken <;> rcases Prod.mk.inj (Option.some.inj taken) with ⟨rfl, rfl⟩
        next missed =>
          exact .misses request _ clocks.database (Nat.le_of_lt later) (.inr ⟨page, rfl, missed⟩)
        next tip found =>
          rcases Option.filter_eq_some_iff.mp found with ⟨found, accepted⟩
          exact .lands request page tip rfl later found accepted
  | createRevision request page updated =>
      simp only [UpdateCall.step] at taken
      rcases Prod.mk.inj (Option.some.inj taken) with ⟨rfl, rfl⟩
      exact .records request page updated rfl
  | returned => cases taken

end ScuffedCrew.Wiki
