import TASQuake.Lib.KeyedList
import TASQuake.Model.Script
import Mathlib.Data.Int.Order.Basic

/-!
# What a script means

A script is played by executing, on each frame, the commands of the blocks of that frame, with every
convar and toggle at the value last written to it: `commandsAt`, `effectiveConvar`,
`effectiveToggle`.  Stacking blocks one after the other computes the effective values
(`find?_toggles_stackAll`, `find?_convars_stackAll`), except that `skill` is never stacked.
-/

namespace TASQuake

open Lib FrameBlock Option List

variable {F : Type}

/-- The frames of a list of blocks are non-negative and do not decrease. -/
structure Ordered (blocks : List (FrameBlock F)) : Prop where
  sorted : KeySorted frame blocks
  nonneg : ∀ b ∈ blocks, 0 ≤ b.frame

/-- Two blocks with the same convars, toggles and commands. -/
structure SameInputs (a b : FrameBlock F) : Prop where
  convars : ∀ name, a.convars.find? name = b.convars.find? name
  toggles : ∀ name, a.toggles.find? name = b.toggles.find? name
  commands : a.commands = b.commands

/-- Two blocks with the same inputs on the same frame. -/
structure SameContents (a b : FrameBlock F) : Prop extends SameInputs a b where
  frame : a.frame = b.frame

theorem SameInputs.refl (a : FrameBlock F) : SameInputs a a := ⟨fun _ => rfl, fun _ => rfl, rfl⟩

theorem SameContents.refl (a : FrameBlock F) : SameContents a a := ⟨.refl a, rfl⟩

/-- The value that the last block of a list that has one gives. -/
def lastValue {ν : Type} (value : FrameBlock F → Option ν) (blocks : List (FrameBlock F)) :
    Option ν :=
  blocks.foldl (fun acc b => (value b).or acc) none

/-- The blocks in force after a frame. -/
def upTo (frame : Int) (blocks : List (FrameBlock F)) : List (FrameBlock F) :=
  blocks.filter fun b => decide (b.frame ≤ frame)

/-- The value of a convar after a frame: that of the last block up to the frame which sets
it. -/
def effectiveConvar (blocks : List (FrameBlock F)) (frame : Int) (name : Str) : Option F :=
  lastValue (fun b => b.convars.find? name) (upTo frame blocks)

/-- The state of a toggle after a frame. -/
def effectiveToggle (blocks : List (FrameBlock F)) (frame : Int) (name : Str) : Option Bool :=
  lastValue (fun b => b.toggles.find? name) (upTo frame blocks)

/-- The commands executed on a frame, in order. -/
def commandsAt (blocks : List (FrameBlock F)) (frame : Int) : List Str :=
  (blocks.filter fun b => decide (b.frame = frame)).flatMap commands

/-- Stack a list of blocks, first to last. -/
def stackAll (start : FrameBlock F) (blocks : List (FrameBlock F)) : FrameBlock F :=
  blocks.foldl stack start

/-! ## Commands -/

section Commands

theorem commandsAt_append (l₁ l₂ : List (FrameBlock F)) (f : Int) :
    commandsAt (l₁ ++ l₂) f = commandsAt l₁ f ++ commandsAt l₂ f := by
  unfold commandsAt
  rw [filter_append, flatMap_append]

theorem commandsAt_cons (b : FrameBlock F) (l : List (FrameBlock F)) (f : Int) :
    commandsAt (b :: l) f = (if b.frame = f then b.commands else []) ++ commandsAt l f := by
  unfold commandsAt
  by_cases hb : b.frame = f
  · rw [filter_cons_of_pos (by simpa using hb), flatMap_cons, if_pos hb]
  · rw [filter_cons_of_neg (by simpa using hb), if_neg hb, nil_append]

/-- Blank blocks have no commands. -/
theorem commandsAt_filter_isBlank (l : List (FrameBlock F)) (f : Int) :
    commandsAt (l.filter fun b => !b.isBlank) f = commandsAt l f := by
  induction l with
  | nil => rfl
  | cons b l ih =>
    by_cases hb : b.isBlank = true
    · have hcmd : b.commands = [] := (b.isBlank_iff.mp hb).2.1
      rw [filter_cons_of_neg (by simpa using hb), ih, commandsAt_cons, hcmd, ite_self, nil_append]
    · rw [filter_cons_of_pos (by simpa using hb), commandsAt_cons, commandsAt_cons, ih]

end Commands

/-! ## Last values -/

section LastValue

variable {ν : Type} (value : FrameBlock F → Option ν)

theorem foldl_or_eq (acc : Option ν) (blocks : List (FrameBlock F)) :
    blocks.foldl (fun acc b => (value b).or acc) acc = (lastValue value blocks).or acc := by
  induction blocks generalizing acc with
  | nil => simp [lastValue]
  | cons b rest ih =>
    have h := ih ((value b).or none)
    simp only [or_none] at h
    rw [lastValue, foldl_cons, foldl_cons, ih, or_none, h, Option.or_assoc]

@[simp] theorem lastValue_nil : lastValue value ([] : List (FrameBlock F)) = none := rfl

theorem lastValue_append (l l' : List (FrameBlock F)) :
    lastValue value (l ++ l') = (lastValue value l').or (lastValue value l) := by
  rw [lastValue, foldl_append, foldl_or_eq]
  rfl

theorem lastValue_cons (b : FrameBlock F) (l : List (FrameBlock F)) :
    lastValue value (b :: l) = (lastValue value l).or (value b) := by
  rw [← singleton_append, lastValue_append]
  simp [lastValue]

/-- Blocks that set nothing do not count. -/
theorem lastValue_filter {p : FrameBlock F → Bool} (l : List (FrameBlock F))
    (h : ∀ b ∈ l, p b = false → value b = none) :
    lastValue value (l.filter p) = lastValue value l := by
  induction l with
  | nil => rfl
  | cons b l ih =>
    have hi := ih fun c hc => h c (mem_cons_of_mem _ hc)
    by_cases hb : p b = true
    · rw [filter_cons_of_pos hb, lastValue_cons, lastValue_cons, hi]
    · have hn := h b mem_cons_self (by simpa using hb)
      rw [filter_cons_of_neg hb, hi, lastValue_cons, hn, or_none]

theorem lastValue_eq_none_iff (l : List (FrameBlock F)) :
    lastValue value l = none ↔ ∀ b ∈ l, value b = none := by
  induction l with
  | nil => simp
  | cons b l ih => simp [lastValue_cons, ih, and_comm]

theorem lastValue_map (f : FrameBlock F → FrameBlock F) (h : ∀ b, value (f b) = value b)
    (l : List (FrameBlock F)) : lastValue value (l.map f) = lastValue value l := by
  induction l with
  | nil => rfl
  | cons b l ih => rw [map_cons, lastValue_cons, lastValue_cons, ih, h]

end LastValue

/-! ## Stacking computes the effective values -/

theorem stackAll_cons (start b : FrameBlock F) (l : List (FrameBlock F)) :
    stackAll start (b :: l) = stackAll (start.stack b) l := rfl

theorem stackAll_append (start : FrameBlock F) (l l' : List (FrameBlock F)) :
    stackAll start (l ++ l') = stackAll (stackAll start l) l' :=
  foldl_append

/-- The contents stacked depend on the contents stacked upon only. -/
theorem stackAll_congr {start start' : FrameBlock F} (hc : start.convars = start'.convars)
    (ht : start.toggles = start'.toggles) (l : List (FrameBlock F)) :
    (stackAll start l).convars = (stackAll start' l).convars ∧
      (stackAll start l).toggles = (stackAll start' l).toggles := by
  induction l generalizing start start' with
  | nil => exact ⟨hc, ht⟩
  | cons b l ih =>
    refine ih ?_ ?_
    · unfold stack
      rw [hc]
    · unfold stack
      rw [ht]

theorem find?_toggles_stack (a b : FrameBlock F) (name : Str) :
    (a.stack b).toggles.find? name = (b.toggles.find? name).or (a.toggles.find? name) :=
  OrderedMap.find?_putAll a.toggles b.toggles.values b.toggles.nodup name

theorem assocFind_filter_stackable (l : List (Str × F)) {name : Str} (h : name ≠ str "skill") :
    assocFind name (l.filter fun pair => stackableCvar pair.1) = assocFind name l := by
  induction l with
  | nil => rfl
  | cons e l ih =>
    by_cases hs : stackableCvar e.1 = true
    · rw [filter_cons, if_pos hs, assocFind, assocFind, ih]
    · have he : ¬ e.1 = name := by
        rintro rfl
        exact hs (by simpa [stackableCvar] using h)
      rw [filter_cons, if_neg hs, ih, assocFind, if_neg he]

theorem find?_convars_stack (a b : FrameBlock F) {name : Str} (h : name ≠ str "skill") :
    (a.stack b).convars.find? name = (b.convars.find? name).or (a.convars.find? name) := by
  have hn : ((b.convars.values.filter fun pair => stackableCvar pair.1).map
      Prod.fst).Nodup := b.convars.nodup.sublist (filter_sublist.map _)
  unfold stack
  rw [OrderedMap.find?_putAll _ _ hn, assocFind_filter_stackable _ h]
  rfl

theorem find?_toggles_stackAll (start : FrameBlock F) (l : List (FrameBlock F)) (name : Str) :
    (stackAll start l).toggles.find? name =
      (lastValue (fun b => b.toggles.find? name) l).or (start.toggles.find? name) := by
  induction l generalizing start with
  | nil => simp [stackAll]
  | cons b l ih => rw [stackAll_cons, ih, find?_toggles_stack, lastValue_cons, Option.or_assoc]

theorem find?_convars_stackAll (start : FrameBlock F) (l : List (FrameBlock F)) {name : Str}
    (h : name ≠ str "skill") :
    (stackAll start l).convars.find? name =
      (lastValue (fun b => b.convars.find? name) l).or (start.convars.find? name) := by
  induction l generalizing start with
  | nil => simp [stackAll]
  | cons b l ih =>
    rw [stackAll_cons, ih, find?_convars_stack _ _ h, lastValue_cons, Option.or_assoc]

end TASQuake
