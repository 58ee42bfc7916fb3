import TASQuake.Lib.Run
import TASQuake.Model.Savestate

/-!
# Which savestate file a savestate gets

The numbers of the files are handed out by the counter `save_number`, but `Savestate_Script_Updated`
resets the counter to the *size* of the map it leaves.  That is right as long as the entries that
survive carry the numbers below their count (`Compact`); otherwise an entry can survive with a
number that the counter hands out again.
-/

namespace TASQuake.Analysis.SavestateNumbers

open Lib SortedMap Savestates

/-- The calls that touch the savestate map. -/
inductive Call (γ : Type) where
  /-- `Create_Savestate(frame, force)` with the answer of `Can_Savestate` -/
  | create (can : Bool) (mapName : Str) (snapshot : γ) (frame : Int) (force : Bool)
  /-- `Savestate_Script_Updated(frame)` -/
  | updated (frame : Int)
  /-- `Cmd_TAS_SS_Clear` -/
  | clear

variable {γ : Type}

/-- The effect of a call; none of them can fail. -/
def step (s : Savestates γ) : Call γ → Option (Savestates γ)
  | .create can mapName snapshot frame force =>
    some (s.createSavestate can mapName snapshot frame force)
  | .updated frame => some (s.scriptUpdated frame)
  | .clear => some s.clear

/-- Two distinct live entries have different numbers, hence different files. -/
def NumbersDistinct (s : Savestates γ) : Prop :=
  ∀ e ∈ s.savestateMap.entries, ∀ e' ∈ s.savestateMap.entries,
    e ≠ e' → e.2.number ≠ e'.2.number

/-- What every call preserves: numbers below the counter, and no number twice. -/
structure Numbered (s : Savestates γ) : Prop where
  below : ∀ e ∈ s.savestateMap.entries, e.2.number < s.saveNumber
  distinct : NumbersDistinct s

/-- A call of `Create_Savestate` does nothing, or puts an entry with the counter's number
under its frame and advances the counter. -/
theorem createSavestate_cases (s : Savestates γ) (can : Bool) (mapName : Str) (snapshot : γ)
    (frame : Int) (force : Bool) :
    s.createSavestate can mapName snapshot frame force = s ∨
      s.createSavestate can mapName snapshot frame force =
        { s with
          savestateMap := s.savestateMap.put frame
            { frame := frame, number := s.saveNumber, map := mapName, snapshot := snapshot }
          saveNumber := s.saveNumber + 1 } := by
  unfold createSavestate
  split
  · exact Or.inl rfl
  · split
    · exact Or.inl rfl
    · exact Or.inr rfl

end TASQuake.Analysis.SavestateNumbers
