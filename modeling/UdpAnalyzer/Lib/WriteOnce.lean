import Mathlib.Logic.Function.Basic

/-! Cells that are written once: a value is inserted only where there is none, so what a cell
holds it holds from then on. -/

namespace UdpAnalyzer

variable {κ ν : Type*}

/-- Every cell that held a value holds it still. -/
def Kept (old new : κ → Option ν) : Prop := ∀ key value, old key = some value → new key = some value

theorem kept_refl (cells : κ → Option ν) : Kept cells cells := fun _ _ h => h

theorem Kept.trans {a b c : κ → Option ν} (hab : Kept a b) (hbc : Kept b c) : Kept a c :=
  fun key value h => hbc key value (hab key value h)

variable [DecidableEq κ]

/-- The value is inserted if the cell has none. -/
def insertNew (cells : κ → Option ν) (key : κ) (value : ν) : κ → Option ν :=
  match cells key with
  | some _ => cells
  | none => Function.update cells key (some value)

theorem insertNew_of_some {cells : κ → Option ν} {key : κ} {held : ν} (h : cells key = some held)
    (value : ν) : insertNew cells key value = cells := by
  rw [insertNew, h]

theorem insertNew_of_none {cells : κ → Option ν} {key : κ} (h : cells key = none) (value : ν) :
    insertNew cells key value = Function.update cells key (some value) := by
  rw [insertNew, h]

theorem kept_insertNew (cells : κ → Option ν) (key : κ) (value : ν) :
    Kept cells (insertNew cells key value) := by
  intro other held hheld
  cases hkey : cells key with
  | some _ => rwa [insertNew_of_some hkey]
  | none =>
    have hne : other ≠ key := by
      rintro rfl
      rw [hkey] at hheld
      cases hheld
    rwa [insertNew_of_none hkey, Function.update_of_ne hne]

/-- Afterwards the cell holds a value. -/
theorem insertNew_isSome (cells : κ → Option ν) (key : κ) (value : ν) :
    ∃ held, insertNew cells key value key = some held := by
  cases hkey : cells key with
  | some held => exact ⟨held, by rw [insertNew_of_some hkey, hkey]⟩
  | none => exact ⟨value, by rw [insertNew_of_none hkey, Function.update_self]⟩

/-- What all values have in common, if the new one has it too. -/
theorem forall_insertNew {P : ν → Prop} {cells : κ → Option ν} {value : ν}
    (hcells : ∀ key held, cells key = some held → P held) (hvalue : P value) (key : κ) :
    ∀ other held, insertNew cells key value other = some held → P held := by
  intro other held hheld
  cases hkey : cells key with
  | some _ =>
    rw [insertNew_of_some hkey] at hheld
    exact hcells other held hheld
  | none =>
    rw [insertNew_of_none hkey] at hheld
    by_cases hother : other = key
    · rw [hother, Function.update_self, Option.some.injEq] at hheld
      rwa [← hheld]
    · rw [Function.update_of_ne hother] at hheld
      exact hcells other held hheld

end UdpAnalyzer
