import Mathlib.Data.List.Basic
import ScuffedCrew.Rust.Bytes

/-!
# Checked code

Code whose indices are checked and whose loops have fuel: a run ends with a
result, by rejecting its input, at an index past the end, or without fuel.
-/

namespace Rust

abbrev Bytes : Type := List UInt8

/-- How a run ends without a result. -/
inductive Fault
  | rejected (message : Text)
  | outOfRange
  | outOfFuel

def reject {α : Type} (message : String) : Except Fault α := .error (.rejected message.toList)

/-- Go on when a condition holds. -/
def ensure (condition : Bool) (message : String) : Except Fault Unit :=
  if condition then .ok () else reject message

/-- `ok_or`. -/
def okOr {α : Type} (found : Option α) (message : String) : Except Fault α :=
  match found with
  | some value => .ok value
  | none => reject message

/-- `&bytes[low..high]`. -/
def slice (bytes : Bytes) (low high : ℕ) : Except Fault Bytes :=
  if low ≤ high ∧ high ≤ bytes.length then .ok ((bytes.drop low).take (high - low))
  else .error .outOfRange

/-- `bytes.get(low..high)`. -/
def getRange (bytes : Bytes) (low high : ℕ) : Option Bytes :=
  if low ≤ high ∧ high ≤ bytes.length then some ((bytes.drop low).take (high - low)) else none

/-- `bytes[index]`. -/
def byteAt (bytes : Bytes) (index : ℕ) : Except Fault UInt8 :=
  match bytes[index]? with
  | some byte => .ok byte
  | none => .error .outOfRange

/-- `u32::from_be_bytes(bytes[low..low + 4].try_into().unwrap())`. -/
def readU32 (bytes : Bytes) (low : ℕ) : Except Fault ℕ :=
  match slice bytes low (low + 4) with
  | .ok [first, second, third, fourth] => .ok (fromBeBytes first second third fourth)
  | .ok _ => .error .outOfRange
  | .error fault => .error fault

namespace Checked

@[simp]
theorem ok_bind {α β : Type} (value : α) (next : α → Except Fault β) :
    (Except.ok value >>= next) = next value := rfl

@[simp]
theorem error_bind {α β : Type} (fault : Fault) (next : α → Except Fault β) :
    (Except.error fault >>= next) = .error fault := rfl

theorem bind_eq_ok {α β : Type} {result : Except Fault α} {next : α → Except Fault β} {value : β} :
    (result >>= next) = .ok value ↔ ∃ first, result = .ok first ∧ next first = .ok value := by
  cases result with
  | ok first => simp
  | error fault => simp

@[simp]
theorem ensure_eq_ok {condition : Bool} {message : String} {value : Unit} :
    ensure condition message = .ok value ↔ condition = true := by
  cases condition <;> simp [ensure, reject]

@[simp]
theorem okOr_eq_ok {α : Type} {found : Option α} {message : String} {value : α} :
    okOr found message = .ok value ↔ found = some value := by
  cases found <;> simp [okOr, reject]

/-- The run has a result. -/
def Ends {α : Type} (result : Except Fault α) : Prop := ∃ value, result = .ok value

section ends

variable {α β : Type} {result : Except Fault α}

@[simp]
theorem ends_ok (value : α) : Ends (.ok value) := ⟨value, rfl⟩

@[simp]
theorem ends_pure (value : α) : Ends (pure value : Except Fault α) := ⟨value, rfl⟩

theorem ends_bind {next : α → Except Fault β} (ends : Ends result)
    (rest : ∀ value, result = .ok value → Ends (next value)) : Ends (result >>= next) := by
  rcases ends with ⟨value, rfl⟩
  exact rest value rfl

end ends

/-- The only way to end without a result is to reject the input. -/
def OnlyRejects {α : Type} (result : Except Fault α) : Prop :=
  ∀ fault, result = .error fault → ∃ message, fault = .rejected message

section rejects

variable {α β : Type} {result : Except Fault α}

@[simp]
theorem onlyRejects_ok (value : α) : OnlyRejects (.ok value) := by
  intro fault failed
  cases failed

@[simp]
theorem onlyRejects_reject (message : String) : OnlyRejects (reject message : Except Fault α) := by
  intro fault failed
  cases failed
  exact ⟨_, rfl⟩

@[simp]
theorem onlyRejects_ite {condition : Prop} [Decidable condition] {other : Except Fault α} :
    OnlyRejects (if condition then result else other) ↔
      (condition → OnlyRejects result) ∧ (¬condition → OnlyRejects other) := by
  split
  next holds => simp [holds]
  next fails => simp [fails]

@[simp]
theorem onlyRejects_ensure (condition : Bool) (message : String) :
    OnlyRejects (ensure condition message) := by
  cases condition <;> simp [ensure]

@[simp]
theorem onlyRejects_okOr (found : Option α) (message : String) :
    OnlyRejects (okOr found message) := by
  cases found <;> simp [okOr]

theorem onlyRejects_map (change : α → β) (rejects : OnlyRejects result) :
    OnlyRejects (result.map change) := by
  cases result with
  | ok value => exact onlyRejects_ok (change value)
  | error fault =>
      rcases rejects fault rfl with ⟨message, rfl⟩
      intro other failed
      cases failed
      exact ⟨message, rfl⟩

theorem onlyRejects_bind {next : α → Except Fault β} (rejects : OnlyRejects result)
    (rest : ∀ value, result = .ok value → OnlyRejects (next value)) :
    OnlyRejects (result >>= next) := by
  cases result with
  | ok value => exact rest value rfl
  | error fault =>
      rcases rejects fault rfl with ⟨message, rfl⟩
      intro other failed
      cases failed
      exact ⟨message, rfl⟩

end rejects

end Checked

variable {bytes middle : Bytes} {low high : ℕ}

theorem slice_of_le (bytes : Bytes) (low high : ℕ) (ordered : low ≤ high) (inside : high ≤ bytes.length) :
    slice bytes low high = .ok ((bytes.drop low).take (high - low)) :=
  if_pos ⟨ordered, inside⟩

theorem getRange_of_le (bytes : Bytes) (low high : ℕ) (ordered : low ≤ high)
    (inside : high ≤ bytes.length) :
    getRange bytes low high = some ((bytes.drop low).take (high - low)) :=
  if_pos ⟨ordered, inside⟩

theorem getRange_of_lt (bytes : Bytes) (low high : ℕ) (outside : bytes.length < high) :
    getRange bytes low high = none :=
  if_neg fun ⟨_, inside⟩ => by omega

theorem byteAt_of_lt (bytes : Bytes) (index : ℕ) (inside : index < bytes.length) :
    byteAt bytes index = .ok bytes[index] := by
  simp only [byteAt, List.getElem?_eq_getElem inside]

theorem slice_of_append (before after : Bytes) (split : bytes = before ++ (middle ++ after))
    (at_low : low = before.length) (at_high : high = low + middle.length) :
    slice bytes low high = .ok middle := by
  subst split at_low at_high
  rw [slice_of_le _ _ _ (by omega) (by simp only [List.length_append]; omega)]
  simp

theorem readU32_of_append (before after : Bytes) {number : ℕ} (small : number < 2 ^ 32)
    (split : bytes = before ++ (toBeBytes number ++ after)) (at_low : low = before.length) :
    readU32 bytes low = .ok number := by
  have cut : slice bytes low (low + 4) = .ok (toBeBytes number) := slice_of_append before after split at_low rfl
  simp only [readU32, cut, toBeBytes]
  exact congrArg Except.ok (fromBeBytes_toBeBytes small)

/-- Four bytes are a number. -/
theorem exists_readU32 (bytes : Bytes) (low : ℕ) (inside : low + 4 ≤ bytes.length) :
    ∃ number < 2 ^ 32, readU32 bytes low = .ok number ∧
      (bytes.drop low).take 4 = toBeBytes number := by
  have four : ((bytes.drop low).take 4).length = 4 := by
    rw [List.length_take, List.length_drop]
    omega
  rcases List.length_eq_four.mp four with ⟨first, second, third, fourth, taken⟩
  refine ⟨fromBeBytes first second third fourth, fromBeBytes_lt _ _ _ _, ?_, ?_⟩
  · have cut : slice bytes low (low + 4) = .ok [first, second, third, fourth] := by
      rw [slice_of_le _ _ _ (by omega) inside, Nat.add_sub_cancel_left, taken]
    simp only [readU32, cut]
  · rw [taken, toBeBytes_fromBeBytes]

end Rust
