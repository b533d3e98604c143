import Mathlib.Data.List.Basic
import Mathlib.Data.List.Infix
import Mathlib.Logic.Function.Basic
import ScuffedCrew.Rust.Checked

/-!
# Folders and files

A path is the list of its components from the root, and a tree says what is at
each path.  A job on the tree ends with a result or with a fault, and leaves
behind what it wrote before that.
-/

namespace Rust

abbrev Path := List Text

namespace Path

/-- The folder above, as a component. -/
def up : Text := ['.', '.']

/-- `components`: the separators between them do not count, nor does `.`. -/
def components (text : Text) : Path :=
  (text.splitOn '/').filter fun part => !(part.isEmpty || part == ['.'])

/-- `join`: an absolute path replaces the one it is joined to. -/
def join (base : Path) (text : Text) : Path :=
  if text.head? = some '/' then components text else base ++ components text

/-- `parent`. -/
def parent (path : Path) : Option Path := if path.isEmpty then none else some path.dropLast

/-- Where a path leads. -/
def locate (path : Path) : Path :=
  path.foldl (fun folder part => if part = up then folder.dropLast else folder ++ [part]) []

/-- A component that names a file or a folder. -/
def Plain (part : Text) : Prop := part ≠ [] ∧ part ≠ ['.'] ∧ part ≠ up ∧ '/' ∉ part

/-- Components as one text. -/
def text (parts : List Text) : Text := ['/'].intercalate parts

@[simp]
theorem text_singleton (part : Text) : text [part] = part := by simp [text]

@[simp]
theorem text_pair (folder file : Text) : text [folder, file] = folder ++ '/' :: file := by
  simp [text]

variable {base path parts : Path}

theorem locate_append (plain : ∀ part ∈ parts, Plain part) :
    locate (base ++ parts) = locate base ++ parts := by
  induction parts using List.reverseRecOn with
  | nil => simp
  | append_singleton parts part ih =>
      have last : part ≠ up := (plain part (by simp)).2.2.1
      have before := ih fun other other_mem => plain other (by simp [other_mem])
      rw [← List.append_assoc, locate, List.foldl_append, ← locate, before]
      simp [last]

theorem components_text (plain : ∀ part ∈ parts, Plain part) : components (text parts) = parts := by
  cases parts with
  | nil => simp [components, text]
  | cons part rest =>
      have split : (text (part :: rest)).splitOn '/' = part :: rest :=
        List.splitOn_intercalate _ (fun other other_mem => (plain other other_mem).2.2.2) (by simp)
      rw [components, split, List.filter_eq_self]
      intro other other_mem
      have named := plain other other_mem
      simp [named.1, named.2.1]

theorem head_text (plain : ∀ part ∈ parts, Plain part) : (text parts).head? ≠ some '/' := by
  cases parts with
  | nil => simp [text]
  | cons part rest =>
      have named := plain part List.mem_cons_self
      have starts : part <+: text (part :: rest) := by
        cases rest with
        | nil => simp [text]
        | cons other rest => simp [text, List.intercalate, List.intersperse]
      rcases starts with ⟨tail, split⟩
      cases part with
      | nil => exact absurd rfl named.1
      | cons letter letters =>
          rw [← split]
          intro slash
          have first : letter = '/' := by simpa using slash
          exact named.2.2.2 (first ▸ List.mem_cons_self)

theorem join_text (plain : ∀ part ∈ parts, Plain part) :
    join base (text parts) = base ++ parts := by
  rw [join, if_neg (head_text plain), components_text plain]

end Path

inductive Node
  | folder
  | file (bytes : Bytes)
  deriving DecidableEq

abbrev Tree := Path → Option Node

/-- A job on the tree: its result, and the tree it leaves. -/
def Job (α : Type) := Tree → Except Fault α × Tree

namespace Job

variable {α β : Type}

def lift (result : Except Fault α) : Job α := fun tree => (result, tree)

def fail (message : String) : Job α := lift (reject message)

def andThen (job : Job α) (next : α → Job β) : Job β := fun tree =>
  match job tree with
  | (.ok value, after) => next value after
  | (.error fault, after) => (.error fault, after)

instance : Monad Job where
  pure value := lift (.ok value)
  bind := andThen

/-- The first job has a result, and the second one goes on from it. -/
theorem bind_ok {job : Job α} {next : α → Job β} {tree after : Tree} {value : β}
    (ran : (job >>= next) tree = (.ok value, after)) :
    ∃ first middle, job tree = (.ok first, middle) ∧ next first middle = (.ok value, after) := by
  change andThen job next tree = _ at ran
  unfold andThen at ran
  cases outcome : job tree with
  | mk result middle =>
      rw [outcome] at ran
      cases result with
      | ok first => exact ⟨first, middle, rfl, ran⟩
      | error fault => simp at ran

theorem bind_of_ok {job : Job α} (next : α → Job β) {tree middle : Tree} {first : α}
    (ran : job tree = (.ok first, middle)) : (job >>= next) tree = next first middle := by
  change andThen job next tree = _
  simp [andThen, ran]

theorem lift_bind_ok {result : Except Fault α} {next : α → Job β} {tree after : Tree} {value : β}
    (ran : (lift result >>= next) tree = (.ok value, after)) :
    ∃ first, result = .ok first ∧ next first tree = (.ok value, after) := by
  rcases bind_ok ran with ⟨first, middle, lifted, rest⟩
  cases lifted
  exact ⟨first, rfl, rest⟩

theorem bind_of_error {job : Job α} (next : α → Job β) {tree middle : Tree} {fault : Fault}
    (ran : job tree = (.error fault, middle)) : (job >>= next) tree = (.error fault, middle) := by
  change andThen job next tree = _
  simp [andThen, ran]

theorem lift_bind_of_ok {result : Except Fault α} (next : α → Job β) {tree : Tree} {first : α}
    (found : result = .ok first) : (lift result >>= next) tree = next first tree := by
  subst found
  rfl

/-! ## What a job leaves alone -/

/-- Neither at the path nor above it is there anything but folders. -/
def IsFolder (tree : Tree) (path : Path) : Prop :=
  ∀ folder, folder <+: path → tree folder = some .folder

/-- Below a folder. -/
def Below (base path : Path) : Prop := base <+: path ∧ path ≠ base

/-- A job that writes below a folder only. -/
def Confined (base : Path) (job : Job α) : Prop :=
  ∀ tree, IsFolder tree base → ∀ path, ¬Below base path → (job tree).2 path = tree path

section confined

variable {base : Path}

theorem IsFolder.of_same {tree after : Tree} (folder : IsFolder tree base)
    (same : ∀ path, ¬Below base path → after path = tree path) : IsFolder after base := by
  intro above starts
  rw [same above, folder above starts]
  rintro ⟨below, other⟩
  exact other (starts.eq_of_length_le below.length_le)

theorem confined_lift (result : Except Fault α) : Confined base (lift result) := by
  intro tree _ path _
  rfl

theorem Confined.bind {job : Job α} {next : α → Job β} (confined : Confined base job)
    (rest : ∀ value, Confined base (next value)) : Confined base (job >>= next) := by
  intro tree folder path outside
  have first := confined tree folder
  change (andThen job next tree).2 path = _
  unfold andThen
  cases outcome : job tree with
  | mk result middle =>
      rw [outcome] at first
      cases result with
      | error fault => exact first path outside
      | ok value =>
          calc (next value middle).2 path = middle path :=
                rest value middle (folder.of_same first) path outside
            _ = tree path := first path outside

theorem Confined.lift_bind {result : Except Fault α} {next : α → Job β}
    (rest : ∀ value, result = .ok value → Confined base (next value)) :
    Confined base (lift result >>= next) := by
  cases result with
  | ok value => exact rest value rfl
  | error fault =>
      intro tree _ path _
      rfl

end confined

/-! ## How a job ends -/

/-- The job ends with a result or by rejecting its input, whatever the tree is. -/
def Settles (job : Job α) : Prop := ∀ tree, Checked.OnlyRejects (job tree).1

theorem settles_lift {result : Except Fault α} (rejects : Checked.OnlyRejects result) :
    Settles (lift result) := fun _ => rejects

theorem Settles.bind {job : Job α} {next : α → Job β} (settles : Settles job)
    (rest : ∀ value, Settles (next value)) : Settles (job >>= next) := by
  intro tree
  have first := settles tree
  change Checked.OnlyRejects (andThen job next tree).1
  unfold andThen
  cases outcome : job tree with
  | mk result middle =>
      rw [outcome] at first
      cases result with
      | ok value => exact rest value middle
      | error fault =>
          intro other failed
          cases failed
          exact first fault rfl

/-! ## Calls to the operating system -/

/-- A call that fails ends the job with a message. -/
def attempt (call : Tree → Bool × Tree) (message : String) : Job Unit := fun tree =>
  match call tree with
  | (true, after) => (.ok (), after)
  | (false, after) => (reject message, after)

theorem settles_attempt (call : Tree → Bool × Tree) (message : String) :
    Settles (attempt call message) := by
  intro tree
  unfold attempt
  split <;> simp

theorem attempt_ok {call : Tree → Bool × Tree} {message : String} {tree after : Tree} {value : Unit}
    (ran : attempt call message tree = (.ok value, after)) : call tree = (true, after) := by
  unfold attempt at ran
  split at ran
  · cases ran
    assumption
  · cases ran

theorem attempt_bind_ok {call : Tree → Bool × Tree} {message : String} {next : Unit → Job α}
    {tree after : Tree} {value : α}
    (ran : (attempt call message >>= next) tree = (.ok value, after)) :
    ∃ middle, call tree = (true, middle) ∧ next () middle = (.ok value, after) := by
  rcases bind_ok ran with ⟨_, middle, attempted, rest⟩
  exact ⟨middle, attempt_ok attempted, rest⟩

theorem attempt_of_done {call : Tree → Bool × Tree} (message : String) {tree after : Tree}
    (done : call tree = (true, after)) : attempt call message tree = (.ok (), after) := by
  simp [attempt, done]

theorem attempt_bind_of_done {call : Tree → Bool × Tree} (message : String) (next : Unit → Job α)
    {tree after : Tree} (done : call tree = (true, after)) :
    (attempt call message >>= next) tree = next () after :=
  bind_of_ok next (attempt_of_done message done)

theorem confined_attempt {base : Path} {call : Tree → Bool × Tree} (message : String)
    (confined : ∀ tree, IsFolder tree base → ∀ path, ¬Below base path →
      (call tree).2 path = tree path) : Confined base (attempt call message) := by
  intro tree folder path outside
  have kept := confined tree folder path outside
  unfold attempt
  split <;> simp_all

end Job

/-! ## The file system

Each call takes what the operating system answers besides what the tree says.
-/

namespace Tree

/-- `symlink_metadata` finds something. -/
def holds (found : Bool) (path : Path) (tree : Tree) : Bool :=
  found && (tree path.locate).isSome

/-- No file stands where a folder has to be. -/
def isClear (path : Path) (tree : Tree) : Bool :=
  path.locate.inits.all fun folder => decide (tree folder = none ∨ tree folder = some .folder)

/-- `create_dir_all`. -/
def createDirAll (made : Bool) (path : Path) (tree : Tree) : Bool × Tree :=
  if made && isClear path tree then
    (true, fun other =>
      if other <+: path.locate ∧ tree other = none then some .folder else tree other)
  else (false, tree)

/-- `File::create`: an old file is emptied. -/
def create (made : Bool) (path : Path) (tree : Tree) : Bool × Tree :=
  if made && decide (tree path.locate.dropLast = some .folder) &&
      !decide (tree path.locate = some .folder) then
    (true, Function.update tree path.locate (some (.file [])))
  else (false, tree)

/-- `OpenOptions::create_new`. -/
def createNew (made : Bool) (path : Path) (tree : Tree) : Bool × Tree :=
  if made && decide (tree path.locate.dropLast = some .folder) && (tree path.locate).isNone then
    (true, Function.update tree path.locate (some (.file [])))
  else (false, tree)

/-- `write_all` into a new file, which may stop after some of the bytes. -/
def writeAll (stopped : Option ℕ) (path : Path) (data : Bytes) (tree : Tree) : Bool × Tree :=
  match stopped with
  | none => (true, Function.update tree path.locate (some (.file data)))
  | some count => (false, Function.update tree path.locate (some (.file (data.take count))))

/-- `sync_all`. -/
def syncAll (synced : Bool) (tree : Tree) : Bool × Tree := (synced, tree)

section calls

variable {base path : Path} {tree after : Tree}

theorem isClear_iff : isClear path tree = true ↔
    ∀ folder, folder <+: path.locate → tree folder = none ∨ tree folder = some .folder := by
  simp [isClear]

theorem createDirAll_ok {made : Bool} (done : createDirAll made path tree = (true, after)) :
    (∀ folder, folder <+: path.locate → after folder = some .folder) ∧
      ∀ other, after other = tree other ∨
        tree other = none ∧ other <+: path.locate ∧ after other = some .folder := by
  unfold createDirAll at done
  split_ifs at done with allowed
  case neg => cases (Prod.mk.inj done).1
  rcases (Prod.mk.inj done).2 with rfl
  have clear := isClear_iff.mp (Bool.and_eq_true_iff.mp allowed).2
  refine ⟨fun folder above => ?_, fun other => ?_⟩
  · rcases clear folder above with missing | found
    · simp [above, missing]
    · simp [found]
  · by_cases missing : other <+: path.locate ∧ tree other = none
    · exact .inr ⟨missing.2, missing.1, if_pos missing⟩
    · exact .inl (if_neg missing)

theorem createDirAll_of_clear (clear : ∀ folder, folder <+: path.locate →
    tree folder = none ∨ tree folder = some .folder) :
    ∃ after, createDirAll true path tree = (true, after) := by
  refine ⟨_, if_pos ?_⟩
  simpa [isClear_iff] using clear

theorem createDirAll_outside {made : Bool} (folder : Job.IsFolder tree base)
    {other : Path} (outside : ¬Job.Below base other) (below : base <+: path.locate) :
    (createDirAll made path tree).2 other = tree other := by
  unfold createDirAll
  split_ifs
  · refine if_neg ?_
    rintro ⟨above, missing⟩
    rcases List.prefix_or_prefix_of_prefix above below with short | long
    · rw [folder other short] at missing
      cases missing
    · apply outside
      refine ⟨long, ?_⟩
      rintro rfl
      rw [folder other long] at missing
      cases missing
  · rfl

theorem create_ok {made : Bool} (done : create made path tree = (true, after)) :
    tree path.locate ≠ some .folder ∧
      after = Function.update tree path.locate (some (.file [])) := by
  unfold create at done
  split_ifs at done with allowed
  case neg => cases (Prod.mk.inj done).1
  refine ⟨?_, (Prod.mk.inj done).2.symm⟩
  simpa using (Bool.and_eq_true_iff.mp allowed).2

theorem createNew_ok {made : Bool} (done : createNew made path tree = (true, after)) :
    tree path.locate = none ∧ after = Function.update tree path.locate (some (.file [])) := by
  unfold createNew at done
  split_ifs at done with allowed
  case neg => cases (Prod.mk.inj done).1
  refine ⟨?_, (Prod.mk.inj done).2.symm⟩
  simpa using (Bool.and_eq_true_iff.mp allowed).2

theorem writeAll_ok {stopped : Option ℕ} {data : Bytes}
    (done : writeAll stopped path data tree = (true, after)) :
    after = Function.update tree path.locate (some (.file data)) := by
  cases stopped with
  | none => exact (Prod.mk.inj done).2.symm
  | some count => cases (Prod.mk.inj done).1

theorem create_of_free (parent : tree path.locate.dropLast = some .folder)
    (free : tree path.locate = none) : ∃ after, create true path tree = (true, after) :=
  ⟨_, if_pos (by simp [parent, free])⟩

theorem createNew_of_free (parent : tree path.locate.dropLast = some .folder)
    (free : tree path.locate = none) : ∃ after, createNew true path tree = (true, after) :=
  ⟨_, if_pos (by simp [parent, free])⟩

variable {other : Path}

theorem create_other {made : Bool} (apart : other ≠ path.locate) :
    (create made path tree).2 other = tree other := by
  unfold create
  split_ifs
  · exact Function.update_of_ne apart _ _
  · rfl

theorem createNew_other {made : Bool} (apart : other ≠ path.locate) :
    (createNew made path tree).2 other = tree other := by
  unfold createNew
  split_ifs
  · exact Function.update_of_ne apart _ _
  · rfl

theorem writeAll_other {stopped : Option ℕ} {data : Bytes} (apart : other ≠ path.locate) :
    (writeAll stopped path data tree).2 other = tree other := by
  cases stopped with
  | none => exact Function.update_of_ne apart _ _
  | some count => exact Function.update_of_ne apart _ _

end calls

end Tree

end Rust
