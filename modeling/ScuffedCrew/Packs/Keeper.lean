import ScuffedCrew.Packs.Sync
import ScuffedCrew.Rust.Numeric
import ScuffedCrew.StateMachine.Run

/-!
# The background job for reader packs

A try decides how long the job waits before the next one, or that nothing is
left to try.  What a run found out is kept for the tries after it: its list,
what it refused, and that the site said to slow down.
-/

namespace ScuffedCrew.Packs

open Rust StateMachine

/-! ## Waits -/

def busyWaitsSecs : List ℕ := [5, 15, 60]
def failedWaitsSecs : List ℕ := [60, 300, 900, 1800]
def limitedWaitsSecs : List ℕ := [0, 10, 20, 40, 80, 120]
def retryFloorSecs : ℕ := 5
def rateLimitRetryMaxSecs : ℕ := 120
def pacedGapSecs : ℕ := 10
def listMaxAgeSecs : ℕ := 30 * 60

/-- `waits[tries]`, or the last one once `tries` is past the end. -/
def nthWait (waits : List ℕ) (tries : ℕ) : Duration :=
  Duration.fromSecs (waits.getD (min tries (waits.length - 1)) 0)

/-- What one try left undone. -/
structure Verdict where
  busy : Bool
  /-- A 429, with the seconds it asked for. -/
  limited : Option ℕ
  disabled : Bool
  /-- Something that may pass by itself. -/
  failed : Bool
  /-- A download refused for a fixed reason. -/
  refused : Bool
  /-- Downloads left for the next try. -/
  held : Bool
  deriving DecidableEq, Repr

namespace PackSync

def rateLimitSecs : PackSync → Option ℕ
  | .failed (.limited seconds) => some seconds
  | _ => none

def isFixedRefusal : PackSync → Bool
  | .failed (.fixed _) => true
  | _ => false

/-- A failure that is neither a 429 nor a fixed refusal. -/
def isOtherFailure : PackSync → Bool
  | .failed (.limited _) | .failed (.fixed _) => false
  | .failed _ => true
  | _ => false

end PackSync

namespace Verdict

/-- `Verdict::of`. -/
def ofReport (report : PackReport) : Verdict where
  busy := report.any fun status => status.outcome = .busy
  limited := (report.filterMap fun status => status.outcome.rateLimitSecs).max?
  disabled := report.any fun status => status.outcome = .unavailable
  failed := report.any fun status => status.outcome.isOtherFailure
  refused := report.any fun status => status.outcome.isFixedRefusal
  held := false

/-- There is nothing to try again. -/
def settled (verdict : Verdict) : Bool :=
  decide (verdict = ⟨false, none, false, false, false, false⟩)

end Verdict

structure Backoff where
  busyTries : ℕ
  limitedTries : ℕ
  failedTries : ℕ
  deriving DecidableEq, Repr

namespace Backoff

/-- A download got through: the next 429 is the first one again. -/
def packArrived (backoff : Backoff) : Backoff := { backoff with limitedTries := 0 }

/-- The longest of the waits that the try ended on. -/
def wait (backoff : Backoff) (verdict : Verdict) (jitter : Duration) : Duration :=
  let busy := if verdict.busy then nthWait busyWaitsSecs backoff.busyTries else 0
  let limited :=
    match verdict.limited with
    | some seconds =>
        max (Duration.fromSecs (max 1 (min seconds rateLimitRetryMaxSecs)))
          (nthWait limitedWaitsSecs backoff.limitedTries) + jitter
    | none => 0
  let held := if verdict.held then Duration.fromSecs pacedGapSecs else 0
  let failed :=
    if verdict.failed || verdict.disabled || (verdict.refused && !verdict.held) then
      nthWait failedWaitsSecs backoff.failedTries
    else 0
  max (max (max (max (Duration.fromSecs retryFloorSecs) busy) limited) held) failed

/-- The steps after a wait. -/
def waited (backoff : Backoff) (verdict : Verdict) : Backoff where
  busyTries := if verdict.busy then backoff.busyTries + 1 else 0
  limitedTries := if verdict.limited.isSome then backoff.limitedTries + 1 else backoff.limitedTries
  failedTries :=
    if verdict.failed || verdict.disabled || (verdict.refused && !verdict.held) then
      backoff.failedTries + 1
    else backoff.failedTries

/-- `wait_after`: `none` when nothing is left to try. -/
def waitAfter (backoff : Backoff) (verdict : Verdict) (jitter : Duration) :
    Option (Duration × Backoff) :=
  if verdict.settled then none
  else some (backoff.wait verdict jitter, backoff.waited verdict)

end Backoff

/-! ## One try -/

/-- A list kept from one try for the tries after it. -/
structure KeptList where
  serverUrl : Text
  entries : List PackListEntry
  age : Duration
  deriving DecidableEq, Repr

structure PackKeeper where
  disk : Disk
  list : Option KeptList
  refused : Refused
  /-- The site has answered 429: one request per try from here on. -/
  paced : Bool

/-- What a try finds: the credentials' server, what stands before a request, and the site. -/
structure TryEnv where
  credentials : Option Text
  access : Access
  server : Server

structure Tried where
  report : PackReport
  heldBack : ℕ

namespace Tried

def verdict (tried : Tried) : Verdict :=
  { Verdict.ofReport tried.report with held := decide (tried.heldBack > 0) }

end Tried

namespace PackKeeper

/-- The kept list, unless it is another server's or too old. -/
def usable (keeper : PackKeeper) (serverUrl : Text) : Option KeptList :=
  keeper.list.filter fun list =>
    decide (list.serverUrl = serverUrl) && decide (list.age < Duration.fromSecs listMaxAgeSecs)

def learn (keeper : PackKeeper) (serverUrl : Text) (run : SyncRun) (age : Duration) :
    PackKeeper :=
  { keeper with
    list :=
      match run.entries with
      | some entries =>
          if run.stale then none else some ⟨serverUrl, entries, if run.readList then 0 else age⟩
      | none => none
    refused :=
      run.refused.foldl (fun refused (entry, refusal) => refused.insert entry.name (entry, refusal))
        keeper.refused
    paced := keeper.paced || (Verdict.ofReport run.report).limited.isSome }

def plan (keeper : PackKeeper) (serverUrl : Text) : RunPlan where
  listed := (keeper.usable serverUrl).map KeptList.entries
  maxRequests := if keeper.paced then some 1 else none
  refused := keeper.refused

def attempt (unpacking : Unpacking) (keeper : PackKeeper) (env : TryEnv) (scope : Scope) :
    Tried × PackKeeper :=
  match env.credentials with
  | none => (⟨scope.specs.map fun spec => ⟨spec.name, .failed .signIn⟩, 0⟩, keeper)
  | some serverUrl =>
      let age := ((keeper.usable serverUrl).map KeptList.age).getD 0
      let (run, disk) :=
        runSync unpacking env.access env.server keeper.disk scope (keeper.plan serverUrl)
      (⟨run.report, run.heldBack⟩, { keeper with disk := disk }.learn serverUrl run age)

/-- `list.age += wait`. -/
def slept (keeper : PackKeeper) (wait : Duration) : PackKeeper :=
  { keeper with list := keeper.list.map fun list => { list with age := list.age + wait } }

end PackKeeper

/-! ## The job -/

/-- The job between two tries. -/
structure Job where
  keeper : PackKeeper
  backoff : Backoff
  tried : Tried

namespace Job

/-- Every pack is settled. -/
def finished (job : Job) : Bool := job.tried.verdict.settled

def rested (job : Job) : Backoff :=
  if job.tried.report.any fun status => status.outcome = .installed then job.backoff.packArrived
  else job.backoff

def next (unpacking : Unpacking) (jitter : Duration) (job : Job) (env : TryEnv) : Option Job :=
  (job.rested.waitAfter job.tried.verdict jitter).map fun (wait, backoff) =>
    let (tried, keeper) := (job.keeper.slept wait).attempt unpacking env .all
    ⟨keeper, backoff, tried⟩

end Job

/-- The loop of `PackKeeper::run`: a wait, and a try. -/
def keeping (unpacking : Unpacking) (jitter : Duration) : Machine Job TryEnv where
  next := Job.next unpacking jitter

end ScuffedCrew.Packs
