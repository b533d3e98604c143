import Mathlib.Data.List.Basic

/-!
# Programs that can be killed

A program works on a disk in steps, and the operating system answers each step.
A run uses up a list of answers, and where the list ends the program is killed:
the runs over all lists are the runs with a kill at every point.

`Safe` is the weakest condition on a disk under which every disk that a run leaves
meets a condition, and one at the end of which the program has a result meets
another.  Its rules follow the way a program is put together.
-/

namespace Rust

universe u

inductive Killable (Answer Disk : Type) (α : Type) : Type 1
  | done (value : α)
  | step {β : Type} (effect : Disk → Answer → β × Disk) (next : β → Killable Answer Disk α)

namespace Killable

variable {Answer Disk α β σ : Type}

def andThen : Killable Answer Disk α → (α → Killable Answer Disk β) → Killable Answer Disk β
  | .done value, following => following value
  | .step effect next, following => .step effect fun response => (next response).andThen following

instance : Monad (Killable Answer Disk) where
  pure := .done
  bind := andThen

/-- A program of one step. -/
def ask (effect : Disk → Answer → α × Disk) : Killable Answer Disk α := .step effect .done

/-- The disk a run leaves, and the result with the answers that are left, unless it is killed. -/
def run : Killable Answer Disk α → Disk → List Answer → Disk × Option (α × List Answer)
  | .done value, disk, answers => (disk, some (value, answers))
  | .step _ _, disk, [] => (disk, none)
  | .step effect next, disk, answer :: answers =>
      (next (effect disk answer).1).run (effect disk answer).2 answers

/-- A fold whose steps are programs. -/
def loop (body : σ → α → Killable Answer Disk σ) : σ → List α → Killable Answer Disk σ
  | state, [] => pure state
  | state, item :: items => body state item >>= fun state => loop body state items

variable {allowed : Disk → Answer → Prop} {always : Disk → Prop} {post post' : α → Disk → Prop}

/-- While the answers are allowed ones, every disk meets a condition, and the last one another. -/
def Safe (allowed : Disk → Answer → Prop) (always : Disk → Prop) (post : α → Disk → Prop) :
    Killable Answer Disk α → Disk → Prop
  | .done value, disk => always disk ∧ post value disk
  | .step effect next, disk => always disk ∧ ∀ answer, allowed disk answer →
      Safe allowed always post (next (effect disk answer).1) (effect disk answer).2

/-- The answers of a run are allowed ones. -/
def Allows (allowed : Disk → Answer → Prop) :
    Killable Answer Disk α → Disk → List Answer → Prop
  | .step effect next, disk, answer :: answers => allowed disk answer ∧
      Allows allowed (next (effect disk answer).1) (effect disk answer).2 answers
  | _, _, _ => True

instance decidableAllows [∀ disk answer, Decidable (allowed disk answer)] :
    ∀ (program : Killable Answer Disk α) (disk : Disk) (answers : List Answer),
      Decidable (Allows allowed program disk answers)
  | .done _, _, _ => .isTrue trivial
  | .step _ _, _, [] => .isTrue trivial
  | .step effect next, disk, answer :: answers =>
      haveI := decidableAllows (next (effect disk answer).1) (effect disk answer).2 answers
      inferInstanceAs (Decidable (_ ∧ _))

variable {program : Killable Answer Disk α} {disk : Disk}

@[simp]
theorem safe_pure {value : α} :
    Safe allowed always post (pure value) disk ↔ always disk ∧ post value disk := Iff.rfl

@[simp]
theorem safe_ask {effect : Disk → Answer → α × Disk} :
    Safe allowed always post (ask effect) disk ↔ always disk ∧ ∀ answer, allowed disk answer →
      always (effect disk answer).2 ∧ post (effect disk answer).1 (effect disk answer).2 := Iff.rfl

theorem Safe.now (safe : Safe allowed always post program disk) : always disk := by
  cases program with
  | done value => exact safe.1
  | step effect next => exact safe.1

theorem Safe.mono (safe : Safe allowed always post program disk)
    (weaker : ∀ value after, always after → post value after → post' value after) :
    Safe allowed always post' program disk := by
  induction program generalizing disk with
  | done value => exact ⟨safe.1, weaker value disk safe.1 safe.2⟩
  | step effect next ih => exact ⟨safe.1, fun answer fits => ih _ (safe.2 answer fits)⟩

/-- One program after the other. -/
theorem Safe.bind {following : α → Killable Answer Disk β} {last : β → Disk → Prop}
    (safe : Safe allowed always
      (fun value after => Safe allowed always last (following value) after) program disk) :
    Safe allowed always last (program >>= following) disk := by
  induction program generalizing disk with
  | done value => exact safe.2
  | step effect next ih => exact ⟨safe.1, fun answer fits => ih _ (safe.2 answer fits)⟩

/-- An invariant that the body of a loop keeps, given the items before. -/
theorem safe_loop {body : σ → α → Killable Answer Disk σ} {items : List α}
    (Inv : List α → σ → Disk → Prop)
    (kept : ∀ seen item rest, seen ++ item :: rest = items → ∀ state disk, Inv seen state disk →
      Safe allowed always (Inv (seen ++ [item])) (body state item) disk)
    {state : σ} (now : always disk) (init : Inv [] state disk) :
    Safe allowed always (Inv items) (loop body state items) disk := by
  have from_here : ∀ rest seen state disk, seen ++ rest = items → always disk →
      Inv seen state disk → Safe allowed always (Inv items) (loop body state rest) disk := by
    intro rest
    induction rest with
    | nil =>
        rintro seen state disk rfl now holds
        rw [List.append_nil]
        exact ⟨now, holds⟩
    | cons item rest ih =>
        intro seen state disk splits now holds
        apply Safe.bind
        apply (kept seen item rest splits state disk holds).mono
        intro next after still holds'
        exact ih (seen ++ [item]) next after (by simpa using splits) still holds'
  exact from_here items [] state disk rfl now init

/-- What a run leaves, wherever it is killed. -/
theorem Safe.run (safe : Safe allowed always post program disk) {answers : List Answer}
    (allows : Allows allowed program disk answers) :
    always (program.run disk answers).1 ∧
      ∀ value rest, (program.run disk answers).2 = some (value, rest) →
        post value (program.run disk answers).1 := by
  induction program generalizing disk answers with
  | done value =>
      refine ⟨safe.1, fun value' rest ended => ?_⟩
      rcases Prod.mk.inj (Option.some.inj ended) with ⟨rfl, -⟩
      exact safe.2
  | step effect next ih =>
      cases answers with
      | nil => exact ⟨safe.1, fun value rest ended => by cases ended⟩
      | cons answer answers => exact ih _ (safe.2 answer allows.1) allows.2

theorem allows_any (program : Killable Answer Disk α) (disk : Disk) (answers : List Answer) :
    Allows (fun _ _ => True) program disk answers := by
  induction program generalizing disk answers with
  | done value => exact trivial
  | step effect next ih =>
      cases answers with
      | nil => exact trivial
      | cons answer answers => exact ⟨trivial, ih _ _ _⟩

end Killable

end Rust
