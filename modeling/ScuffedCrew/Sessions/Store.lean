import Mathlib.Algebra.Order.Ring.Int
import ScuffedCrew.Database.Table
import ScuffedCrew.Rust.Text
import ScuffedCrew.StateMachine.Tasks

/-!
# Sessions of the site

The session table and the calls on it, by the statement each makes next.  A
login drops the expired sessions of its user, counts the live ones, evicts the
oldest when there are too many, and inserts its own; a revocation counts before
it deletes.  Other calls come in between the statements.
-/

namespace ScuffedCrew.Sessions

open Rust Database StateMachine

/-- The row of a session.  `token` is the hash of the secret; times are in nanoseconds. -/
structure Session where
  userId : Text
  token : Text
  expiresAt : ℤ
  createdAt : ℤ
  deriving DecidableEq

/-- `MAX_SESSIONS_PER_USER`. -/
def maxSessionsPerUser : ℕ := 10

/-- The live sessions that a login leaves. -/
def room : ℕ := maxSessionsPerUser - 1

def hours (count : ℤ) : ℤ := count * (60 * 60 * 1000000000)

/-- The table with its unique index on the token, and the time of the database. -/
structure SessionStore where
  sessions : Table Session
  clock : ℤ
  unique : (sessions.rows.map fun row => row.value.token).Nodup

namespace SessionStore

variable (store : SessionStore)

def live (row : Record Session) : Bool := store.clock < row.value.expiresAt

/-- `WHERE user_id = $uid AND expires_at > time::now()`. -/
def liveOf (userId : Text) : List (Record Session) :=
  store.sessions.rows.filter fun row => row.value.userId == userId && store.live row

def deleteWhere (selected : Record Session → Bool) : SessionStore where
  sessions := store.sessions.deleteWhere selected
  clock := store.clock
  unique := store.unique.sublist (List.filter_sublist.map _)

/-- `CREATE`, or nothing when the index holds the token. -/
def create (session : Session) : Option SessionStore :=
  if taken : session.token ∈ store.sessions.rows.map (fun row => row.value.token) then none
  else
    some {
      sessions := store.sessions.create session
      clock := store.clock
      unique := by
        rw [Table.create, List.map_append, List.nodup_append]
        refine ⟨store.unique, by simp, ?_⟩
        intro one one_mem other other_mem same
        rcases List.mem_singleton.mp other_mem with rfl
        rcases same with rfl
        exact taken one_mem }

/-- The user of the live session that a token opens. -/
def resolve (token : Text) : Option Text :=
  (store.sessions.rows.find? fun row => row.value.token == token && store.live row).map
    fun row => row.value.userId

variable {store} {after : SessionStore} {session : Session} {row : Record Session}

theorem mem_liveOf {userId : Text} : row ∈ store.liveOf userId ↔
    row ∈ store.sessions.rows ∧ row.value.userId = userId ∧ store.clock < row.value.expiresAt := by
  simp [liveOf, live]

theorem sessions_create (created : store.create session = some after) :
    after.sessions = store.sessions.create session ∧ after.clock = store.clock := by
  rw [create] at created
  split at created
  · cases created
  · rcases Option.some.inj created with rfl
    exact ⟨rfl, rfl⟩

end SessionStore

/-! ## Calls -/

inductive DbError
  | surreal
  | timeout
  | notFound (message : Text)
  deriving DecidableEq

structure Login where
  userId : Text
  rawToken : Text
  durationHours : ℤ

/-- A call, by the statement it makes next. -/
inductive SessionCall
  | dropExpired (login : Login)
  | countLive (login : Login)
  | selectOldest (login : Login) (excess : ℕ)
  | evict (login : Login) (id : ℕ) (rest : List ℕ)
  | insert (login : Login)
  | created (login : Login) (answer : Except DbError Unit)
  | lookup (rawToken : Text)
  | found (rawToken : Text) (answer : Except DbError (Option Text))
  | logout (rawToken : Text)
  | loggedOut (rawToken : Text) (answer : Except DbError Unit)
  | countAll (userId : Text)
  | deleteAll (userId : Text) (count : ℕ)
  | revoked (userId : Text) (answer : Except DbError ℕ)
  | countExpired
  | deleteExpired (count : ℕ)
  | cleanedUp (answer : Except DbError ℕ)

/-- A statement fails, or is made and its answer is lost, or is answered. -/
inductive Fate
  | fails (error : DbError)
  | lost (error : DbError)
  | answered

/-- What becomes of a statement.  A login reads the clock of the server twice, and rows that were
created at the same time are selected in any order. -/
structure Reply where
  fate : Fate
  expiresFrom : ℤ
  createdAt : ℤ
  oldestFirst : List (Record Session)

inductive SessionRequest
  | create (login : Login)
  | get (rawToken : Text)
  | delete (rawToken : Text)
  | deleteForUser (userId : Text)
  | cleanup

/-- The first statement of a call. -/
def SessionRequest.call : SessionRequest → SessionCall
  | create login => .dropExpired login
  | get rawToken => .lookup rawToken
  | delete rawToken => .logout rawToken
  | deleteForUser userId => .countAll userId
  | cleanup => .countExpired

namespace SessionCall

def failed (error : DbError) : SessionCall → SessionCall
  | dropExpired login | countLive login | selectOldest login _ | evict login _ _ | insert login =>
      created login (.error error)
  | lookup rawToken => found rawToken (.error error)
  | logout rawToken => loggedOut rawToken (.error error)
  | countAll userId | deleteAll userId _ => revoked userId (.error error)
  | countExpired | deleteExpired _ => cleanedUp (.error error)
  | returned => returned

def afterCount (login : Login) (count : ℕ) : SessionCall :=
  if room < count then selectOldest login (count - room) else insert login

def afterOldest (login : Login) : List ℕ → SessionCall
  | [] => created login (.error (.notFound "session cap eviction selected no rows".toList))
  | id :: rest => evict login id rest

def afterEvict (login : Login) : List ℕ → SessionCall
  | [] => insert login
  | id :: rest => evict login id rest

/-- The row that a login inserts. -/
def row (hash : Text → Text) (login : Login) (reply : Reply) : Session :=
  ⟨login.userId, hash login.rawToken, reply.expiresFrom + hours login.durationHours,
    reply.createdAt⟩

variable (hash : Text → Text)

/-- A statement that is made. -/
def statement (store : SessionStore) (reply : Reply) :
    SessionCall → Option (SessionStore × SessionCall)
  | dropExpired login =>
      some (store.deleteWhere fun row => row.value.userId == login.userId && !store.live row,
        countLive login)
  | countLive login => some (store, afterCount login (store.liveOf login.userId).length)
  | selectOldest login excess =>
      if reply.oldestFirst.Perm (store.liveOf login.userId) ∧
          reply.oldestFirst.Pairwise (fun one other =>
            one.value.createdAt ≤ other.value.createdAt) then
        some (store, afterOldest login ((reply.oldestFirst.take excess).map Record.id))
      else none
  | evict login id rest => some (store.deleteWhere fun row => row.id == id, afterEvict login rest)
  | insert login =>
      match store.create (row hash login reply) with
      | none => some (store, created login (.error .surreal))
      | some after => some (after, created login (.ok ()))
  | lookup rawToken => some (store, found rawToken (.ok (store.resolve (hash rawToken))))
  | logout rawToken =>
      some (store.deleteWhere fun row => row.value.token == hash rawToken,
        loggedOut rawToken (.ok ()))
  | countAll userId =>
      match store.sessions.rows.countP fun row => row.value.userId == userId with
      | 0 => some (store, revoked userId (.ok 0))
      | count + 1 => some (store, deleteAll userId (count + 1))
  | deleteAll userId count =>
      some (store.deleteWhere fun row => row.value.userId == userId, revoked userId (.ok count))
  | countExpired =>
      match store.sessions.rows.countP fun row => !store.live row with
      | 0 => some (store, cleanedUp (.ok 0))
      | count + 1 => some (store, deleteExpired (count + 1))
  | deleteExpired count =>
      some (store.deleteWhere fun row => !store.live row, cleanedUp (.ok count))
  | _ => none

def step (store : SessionStore) (call : SessionCall) (reply : Reply) :
    Option (Advance SessionStore SessionCall) :=
  (call.statement hash store reply).map fun made =>
    match reply.fate with
    | .fails error => ⟨store, call.failed error, []⟩
    | .lost error => ⟨made.1, call.failed error, []⟩
    | .answered => ⟨made.1, made.2, []⟩

end SessionCall

/-! ## What a step does -/

namespace SessionCall

variable {hash : Text → Text} {store : SessionStore} {reply : Reply} {call : SessionCall}
  {advance : Advance SessionStore SessionCall}

/-- The next statement of the call takes the row out. -/
def Removes (hash : Text → Text) (store : SessionStore) (row : Record Session) :
    SessionCall → Prop
  | dropExpired login => row.value.userId = login.userId ∧ row.value.expiresAt ≤ store.clock
  | evict _ id _ => row.id = id
  | logout rawToken => row.value.token = hash rawToken
  | deleteAll userId _ => row.value.userId = userId
  | deleteExpired _ => row.value.expiresAt ≤ store.clock
  | _ => False

/-- What a step does to the table. -/
inductive Effect (hash : Text → Text) (store : SessionStore) (call : SessionCall) (reply : Reply)
    (after : SessionStore) : Prop where
  | removes (removed : Record Session → Bool)
      (allowed : ∀ row, removed row = true → call.Removes hash store row)
      (rows : after.sessions.rows = store.sessions.rows.filter fun row => !removed row)
      (nextId : after.sessions.nextId = store.sessions.nextId) (clock : after.clock = store.clock)
  | inserts (login : Login) (inserting : call = insert login)
      (created : store.create (row hash login reply) = some after)

theorem effect_refl : Effect hash store call reply store :=
  .removes (fun _ => false) (by simp) (by simp) rfl rfl

theorem effect_deleteWhere {selected : Record Session → Bool}
    (allowed : ∀ row, selected row = true → call.Removes hash store row) :
    Effect hash store call reply (store.deleteWhere selected) :=
  .removes selected allowed rfl rfl rfl

theorem effect_of_statement {after : SessionStore} {next : SessionCall}
    (made : call.statement hash store reply = some (after, next)) :
    Effect hash store call reply after := by
  cases call with
  | dropExpired login =>
      rcases Prod.mk.inj (Option.some.inj made) with ⟨rfl, -⟩
      apply effect_deleteWhere
      simp [Removes, SessionStore.live]
  | countLive login =>
      rcases Prod.mk.inj (Option.some.inj made) with ⟨rfl, -⟩
      exact effect_refl
  | selectOldest login excess =>
      simp only [statement] at made
      split at made
      · rcases Prod.mk.inj (Option.some.inj made) with ⟨rfl, -⟩
        exact effect_refl
      · cases made
  | evict login id rest =>
      rcases Prod.mk.inj (Option.some.inj made) with ⟨rfl, -⟩
      apply effect_deleteWhere
      simp [Removes]
  | insert login =>
      simp only [statement] at made
      split at made
      next =>
        rcases Prod.mk.inj (Option.some.inj made) with ⟨rfl, -⟩
        exact effect_refl
      next created =>
        rcases Prod.mk.inj (Option.some.inj made) with ⟨rfl, -⟩
        exact .inserts login rfl created
  | lookup rawToken =>
      rcases Prod.mk.inj (Option.some.inj made) with ⟨rfl, -⟩
      exact effect_refl
  | logout rawToken =>
      rcases Prod.mk.inj (Option.some.inj made) with ⟨rfl, -⟩
      apply effect_deleteWhere
      simp [Removes]
  | countAll userId =>
      simp only [statement] at made
      split at made <;> rcases Prod.mk.inj (Option.some.inj made) with ⟨rfl, -⟩ <;>
        exact effect_refl
  | deleteAll userId count =>
      rcases Prod.mk.inj (Option.some.inj made) with ⟨rfl, -⟩
      apply effect_deleteWhere
      simp [Removes]
  | countExpired =>
      simp only [statement] at made
      split at made <;> rcases Prod.mk.inj (Option.some.inj made) with ⟨rfl, -⟩ <;>
        exact effect_refl
  | deleteExpired count =>
      rcases Prod.mk.inj (Option.some.inj made) with ⟨rfl, -⟩
      apply effect_deleteWhere
      simp [Removes, SessionStore.live]
  | created | found | loggedOut | revoked | cleanedUp => cases made

/-- A step makes its statement or leaves the store alone, and goes on only when it is answered. -/
theorem step_cases (taken : call.step hash store reply = some advance) :
    ∃ after next, call.statement hash store reply = some (after, next) ∧ advance.spawned = [] ∧
      ((∃ error, advance.shared = store ∧ advance.process = call.failed error) ∨
        (∃ error, advance.shared = after ∧ advance.process = call.failed error) ∨
          advance.shared = after ∧ advance.process = next) := by
  rcases Option.map_eq_some_iff.mp taken with ⟨⟨after, next⟩, made, rfl⟩
  refine ⟨after, next, made, ?_⟩
  cases reply.fate with
  | fails error => exact ⟨rfl, .inl ⟨error, rfl, rfl⟩⟩
  | lost error => exact ⟨rfl, .inr (.inl ⟨error, rfl, rfl⟩)⟩
  | answered => exact ⟨rfl, .inr (.inr ⟨rfl, rfl⟩)⟩

theorem effect_of_step (taken : call.step hash store reply = some advance) :
    Effect hash store call reply advance.shared := by
  rcases step_cases taken with
    ⟨after, next, made, -, ⟨error, same, -⟩ | ⟨error, same, -⟩ | ⟨same, -⟩⟩
  · rw [same]
    exact effect_refl
  · rw [same]
    exact effect_of_statement made
  · rw [same]
    exact effect_of_statement made

end SessionCall

/-- The calls over the store.  Its time does not go back. -/
def sessionTasks (hash : Text → Text) :
    Tasks SessionStore SessionCall SessionRequest Reply ℕ where
  arrival := SessionRequest.call
  step := SessionCall.step hash
  change store elapsed := { store with clock := store.clock + elapsed }

abbrev SessionPool : Type := Pool SessionStore SessionCall

abbrev SessionEvent : Type := TaskEvent SessionRequest Reply ℕ

abbrev SessionStep : Type := Step SessionPool SessionEvent

/-- A user with as many sessions as the cap allows. -/
def tenSessions : SessionStore where
  sessions :=
    { rows := (List.range 10).map fun id =>
        ⟨id, "ana".toList, 't' :: Nat.toDigits 10 id, 1000, id⟩
      nextId := 10
      fresh := by decide
      distinct := by decide }
  clock := 20
  unique := by decide

/-- The statement of the call is answered, with the sessions in the order of their ids. -/
def answeredTurn (call : ℕ) : SessionEvent :=
  .turn call ⟨.answered, 21, 21, tenSessions.sessions.rows⟩

end ScuffedCrew.Sessions
