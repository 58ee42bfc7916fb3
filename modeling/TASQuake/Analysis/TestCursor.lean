import TASQuake.Lib.Run
import TASQuake.Model.TestScript

/-!
# The cursor of the test runner

`SCRIPT_INDEX` and `BLOCK_INDEX` point to the block whose hook the runner is waiting for.  A test
that has been loaded need not have a block: `Load_From_File` returns `true` for a file that it
cannot open.  A load, the last hook of a test's last block and a failure move to another test; each
keeps the cursor valid exactly if that test has a block or does not exist.
-/

namespace TASQuake.Analysis.TestCursor

open Lib TestRunner Option Bool List

/-- The entry points of test_runner.cpp. -/
inductive Call where
  /-- `tas_test_run` and `tas_test_generate` -/
  | load (generate : Bool) (fileName : Str) (file : Option Str)
  | changelevel
  | frame (current : UInt32)
  | scriptCompleted
  | reportFailure (error : Str)

/-- The effect of a call; `none` if it reads a block or a test that does not exist. -/
def step (s : TestRunner) : Call → Option TestRunner
  | .load generate fileName file => some (s.loadTest generate fileName file)
  | .changelevel => s.changelevelHook
  | .frame current => s.frameHook current
  | .scriptCompleted => s.scriptCompletedHook
  | .reportFailure error => s.reportFailure error

/-- While a test is running, the cursor points to a block. -/
def CursorValid (s : TestRunner) : Prop :=
  s.testRunning = true → ∃ test, s.currentTest = some test ∧ s.blockIndex < test.blocks.length

/-- The test at an index has a block, if there is such a test. -/
def HasBlock (tests : List TestScript) (index : ℕ) : Prop :=
  ∀ test, tests[index]? = some test → test.blocks ≠ []

/-- The hook is the last one of the last block of the test that is running. -/
def Finishes (s : TestRunner) (hook : HookEnum) (filterMatches : UInt32 → Bool) : Prop :=
  s.testRunning = true ∧ ∃ test block, s.currentTest = some test ∧ s.currentBlock = some block ∧
    block.hook = hook ∧ filterMatches block.afterframesFilter = true ∧
    block.hookCount ≤ s.hookCount + 1 ∧ test.blocks.length ≤ s.blockIndex + 1

/-- The test that a load adds, if it adds one. -/
def loaded (fileName : Str) (file : Option Str) : Option TestScript :=
  let result := { fileName := fileName : TestScript }.loadFromFile file
  if result.rval then some result.test else none

/-- The condition on a call: the test to which it moves has a block. -/
def MovesToBlock (s : TestRunner) : Call → Prop
  | .load _ fileName file =>
    ∀ test, loaded fileName file = some test → HasBlock (s.testVector ++ [test]) 0
  | .changelevel =>
    Finishes s .levelChange (fun _ => true) → HasBlock s.testVector (s.scriptIndex + 1)
  | .frame current =>
    Finishes s .frame (fun filter => filter == (filter &&& current)) →
      HasBlock s.testVector (s.scriptIndex + 1)
  | .scriptCompleted =>
    Finishes s .scriptCompleted (fun _ => true) → HasBlock s.testVector (s.scriptIndex + 1)
  | .reportFailure _ => s.testRunning = true → HasBlock s.testVector (s.scriptIndex + 1)

/-! ## What each function does to the cursor -/

variable {s : TestRunner} {test : TestScript}

theorem cursorValid_startNewTest (hrun : s.testRunning = true) (ht : s.currentTest = some test)
    (failed : Bool) :
    ∃ s', s.startNewTest failed = some s' ∧
      (CursorValid s' ↔ HasBlock s.testVector (s.scriptIndex + 1)) := by
  unfold startNewTest
  rw [ht]
  simp only [some_bind]
  split
  · next hend =>
    refine ⟨_, rfl, iff_of_true (fun h => ?_) (fun next hnext => ?_)⟩
    · exact absurd h false_ne_true
    · rw [getElem?_eq_none hend] at hnext
      cases hnext
  · next hmore =>
    refine ⟨_, rfl, fun h next hnext => ?_, fun h _ => ?_⟩
    · obtain ⟨test', htest', hlt⟩ := h hrun
      have heq := hnext.symm.trans htest'
      cases heq
      exact length_pos_iff.mp hlt
    · obtain ⟨next, hnext⟩ : ∃ next, s.testVector[s.scriptIndex + 1]? = some next :=
        ⟨_, getElem?_eq_getElem (not_le.mp hmore)⟩
      exact ⟨next, hnext, length_pos_iff.mpr (h next hnext)⟩

theorem cursorValid_blockChange (hrun : s.testRunning = true) (ht : s.currentTest = some test) :
    ∃ s', s.blockChange = some s' ∧
      (CursorValid s' ↔
        (test.blocks.length ≤ s.blockIndex + 1 → HasBlock s.testVector (s.scriptIndex + 1))) := by
  unfold blockChange
  rw [ht]
  simp only [some_bind]
  split
  · next hend =>
    obtain ⟨s', hs', hvalid⟩ := cursorValid_startNewTest
      (s := { s with blockIndex := s.blockIndex + 1, hookCount := 0 }) hrun ht false
    exact ⟨s', hs', hvalid.trans ⟨fun h _ => h, fun h => h hend⟩⟩
  · next hmore =>
    exact ⟨_, rfl, iff_of_true (fun _ => ⟨test, ht, not_le.mp hmore⟩) fun h => absurd h hmore⟩

theorem cursorValid_hookIteration {block : TestBlock} (hrun : s.testRunning = true)
    (ht : s.currentTest = some test) (hb : s.currentBlock = some block) :
    ∃ s', s.hookIteration = some s' ∧
      (CursorValid s' ↔
        (block.hookCount ≤ s.hookCount + 1 → test.blocks.length ≤ s.blockIndex + 1 →
          HasBlock s.testVector (s.scriptIndex + 1))) := by
  have hb' : { s with hookCount := s.hookCount + 1 }.currentBlock = some block := hb
  have hlt : s.blockIndex < test.blocks.length := by
    rw [currentBlock, ht, bind_some] at hb
    exact (List.getElem?_eq_some_iff.mp hb).1
  unfold hookIteration
  simp only [bind_eq_bind, hb', bind_some]
  split
  · next hcount =>
    obtain ⟨s', hs', hvalid⟩ := cursorValid_blockChange
      (s := { s with hookCount := s.hookCount + 1 }.addAfterframes block.command) hrun ht
    exact ⟨s', hs', hvalid.trans ⟨fun h _ => h, fun h => h hcount⟩⟩
  · next hcount =>
    exact ⟨_, rfl, iff_of_true (fun _ => ⟨test, ht, hlt⟩) fun h => absurd h hcount⟩

theorem cursorValid_onHook (h : CursorValid s) (hook : HookEnum) (filterMatches : UInt32 → Bool) :
    ∃ s', s.onHook hook filterMatches = some s' ∧
      (CursorValid s' ↔
        (Finishes s hook filterMatches → HasBlock s.testVector (s.scriptIndex + 1))) := by
  unfold onHook
  cases hrun : s.testRunning with
  | false =>
    refine ⟨s, rfl, iff_of_true h fun hfin => ?_⟩
    rw [hfin.1] at hrun
    cases hrun
  | true =>
    obtain ⟨test, ht, hlt⟩ := h hrun
    have hb : s.currentBlock = some test.blocks[s.blockIndex] := by
      rw [currentBlock, ht, bind_some, getElem?_eq_getElem hlt]
    generalize test.blocks[s.blockIndex] = block at hb
    simp only [Bool.not_true, false_eq_true, if_false, hb, some_bind]
    split
    · next hmatch =>
      rw [and_eq_true, decide_eq_true_eq] at hmatch
      obtain ⟨s', hs', hvalid⟩ := cursorValid_hookIteration hrun ht hb
      refine ⟨s', hs', hvalid.trans ⟨fun hnext hfin => ?_, fun hnext hcount hlast => ?_⟩⟩
      · obtain ⟨-, test', block', ht', hb', -, -, hcount, hlast⟩ := hfin
        rw [ht, some.injEq] at ht'
        rw [hb, some.injEq] at hb'
        subst ht' hb'
        exact hnext hcount hlast
      · exact hnext ⟨hrun, test, block, ht, hb, hmatch.1, hmatch.2, hcount, hlast⟩
    · next hmatch =>
      refine ⟨s, rfl, iff_of_true h fun hfin => ?_⟩
      obtain ⟨-, test', block', -, hb', hhook, hfilter, -⟩ := hfin
      rw [hb, some.injEq] at hb'
      subst hb'
      refine absurd ?_ hmatch
      rw [and_eq_true, decide_eq_true_eq]
      exact ⟨hhook, hfilter⟩

theorem cursorValid_reportFailure (h : CursorValid s) (error : Str) :
    ∃ s', s.reportFailure error = some s' ∧
      (CursorValid s' ↔ (s.testRunning = true → HasBlock s.testVector (s.scriptIndex + 1))) := by
  unfold reportFailure
  by_cases hrun : s.testRunning = true
  · obtain ⟨test, ht, -⟩ := h hrun
    obtain ⟨s', hs', hvalid⟩ := cursorValid_startNewTest
      (s := { s with
        testOutput := s.testOutput ++ str "Test \"" ++ test.description ++
          str "\" failed, reason: " ++ error ++ str "\n" }) hrun ht true
    refine ⟨s', ?_, hvalid.trans ⟨fun hnext _ => hnext, fun hnext => hnext hrun⟩⟩
    rw [if_neg (by simp [hrun]), ht]
    exact hs'
  · rw [if_pos (by simpa using hrun)]
    exact ⟨s, rfl, iff_of_true h fun hrun' => absurd hrun' hrun⟩

theorem cursorValid_loadTest (h : CursorValid s) (generate : Bool) (fileName : Str)
    (file : Option Str) :
    CursorValid (s.loadTest generate fileName file) ↔
      ∀ test, loaded fileName file = some test → HasBlock (s.testVector ++ [test]) 0 := by
  unfold loadTest loaded
  simp only
  cases hrval : (TestScript.loadFromFile { fileName := fileName } file).rval with
  | false =>
    simp only [Bool.not_false, if_true, false_eq_true, if_false]
    exact iff_of_true h fun _ hnone => nomatch hnone
  | true =>
    simp only [Bool.not_true, false_eq_true, if_false, if_true, some.injEq]
    generalize (TestScript.loadFromFile { fileName := fileName } file).test = new
    constructor
    · rintro hvalid test rfl first hfirst
      obtain ⟨test', htest', hlt⟩ := hvalid rfl
      have heq := hfirst.symm.trans htest'
      cases heq
      exact length_pos_iff.mp hlt
    · intro hnew _
      obtain ⟨first, hfirst⟩ : ∃ first, (s.testVector ++ [new])[0]? = some first :=
        ⟨_, getElem?_eq_getElem (by simp)⟩
      exact ⟨first, hfirst, length_pos_iff.mpr (hnew new rfl first hfirst)⟩

/-- From a valid cursor every call returns, and leaves a valid cursor exactly if the test to which it
moves has a block. -/
theorem cursorValid_step (h : CursorValid s) (call : Call) :
    ∃ s', step s call = some s' ∧ (CursorValid s' ↔ MovesToBlock s call) := by
  cases call with
  | load generate fileName file =>
    exact ⟨_, rfl, cursorValid_loadTest h generate fileName file⟩
  | changelevel => exact cursorValid_onHook h .levelChange fun _ => true
  | frame current => exact cursorValid_onHook h .frame fun filter => filter == (filter &&& current)
  | scriptCompleted => exact cursorValid_onHook h .scriptCompleted fun _ => true
  | reportFailure error => exact cursorValid_reportFailure h error

/-! ## Tests with blocks -/

/-- A load finds a block in the file, or an error. -/
def LoadsBlock : Call → Prop
  | .load _ fileName file => ∀ test, loaded fileName file = some test → test.blocks ≠ []
  | _ => True

/-- The tests in the vector have blocks. -/
def AllHaveBlocks (s : TestRunner) : Prop := ∀ test ∈ s.testVector, test.blocks ≠ []

theorem AllHaveBlocks.hasBlock (h : AllHaveBlocks s) (index : ℕ) : HasBlock s.testVector index :=
  fun test ht => h test (mem_of_getElem? ht)

section Frame

variable {s s' : TestRunner}

section

variable (h : AllHaveBlocks s)
include h

theorem AllHaveBlocks.startNewTest {failed : Bool}
    (hs : s.startNewTest failed = some s') : AllHaveBlocks s' := by
  unfold TestRunner.startNewTest at hs
  obtain ⟨test, -, hs⟩ := bind_eq_some_iff.mp hs
  simp only at hs
  split at hs
  · cases hs
    exact fun _ hmem => absurd hmem not_mem_nil
  · cases hs
    exact h

theorem AllHaveBlocks.blockChange (hs : s.blockChange = some s') :
    AllHaveBlocks s' := by
  unfold TestRunner.blockChange at hs
  obtain ⟨test, -, hs⟩ := bind_eq_some_iff.mp hs
  simp only at hs
  split at hs
  · exact AllHaveBlocks.startNewTest h hs
  · cases hs
    exact h

theorem AllHaveBlocks.hookIteration (hs : s.hookIteration = some s') :
    AllHaveBlocks s' := by
  unfold TestRunner.hookIteration at hs
  obtain ⟨block, -, hs⟩ := bind_eq_some_iff.mp hs
  split at hs
  · refine AllHaveBlocks.blockChange ?_ hs
    exact h
  · cases hs
    exact h

theorem AllHaveBlocks.onHook (hook : HookEnum)
    (filterMatches : UInt32 → Bool) (hs : s.onHook hook filterMatches = some s') :
    AllHaveBlocks s' := by
  unfold TestRunner.onHook at hs
  split at hs
  · cases hs
    exact h
  · obtain ⟨block, -, hs⟩ := bind_eq_some_iff.mp hs
    split at hs
    · exact h.hookIteration hs
    · cases hs
      exact h

theorem AllHaveBlocks.reportFailure {error : Str}
    (hs : s.reportFailure error = some s') : AllHaveBlocks s' := by
  unfold TestRunner.reportFailure at hs
  split at hs
  · cases hs
    exact h
  · obtain ⟨test, -, hs⟩ := bind_eq_some_iff.mp hs
    refine AllHaveBlocks.startNewTest ?_ hs
    exact h

theorem AllHaveBlocks.loadTest {generate : Bool} {fileName : Str}
    {file : Option Str} (hload : LoadsBlock (.load generate fileName file)) :
    AllHaveBlocks (s.loadTest generate fileName file) := by
  have hnew : ∀ test, loaded fileName file = some test → test.blocks ≠ [] := hload
  unfold loaded at hnew
  unfold TestRunner.loadTest
  simp only at hnew ⊢
  split
  · exact h
  · next hrval =>
    rw [if_pos (by simpa using hrval)] at hnew
    intro test hmem
    rcases mem_append.mp hmem with hmem | hmem
    · exact h test hmem
    · exact hnew test (congrArg some (mem_singleton.mp hmem).symm)

end

end Frame

theorem movesToBlock_of_loadsBlock {call : Call} (h : AllHaveBlocks s) (hload : LoadsBlock call) :
    MovesToBlock s call ∧ ∀ s', step s call = some s' → AllHaveBlocks s' := by
  cases call with
  | load generate fileName file =>
    constructor
    · intro test htest first hfirst
      rcases mem_append.mp (mem_of_getElem? hfirst) with hmem | hmem
      · exact h first hmem
      · rw [mem_singleton.mp hmem]
        exact hload test htest
    · rintro s' ⟨⟩
      exact h.loadTest hload
  | changelevel =>
    exact ⟨fun _ => h.hasBlock _, fun s' hs => h.onHook .levelChange (fun _ => true) hs⟩
  | frame current =>
    exact ⟨fun _ => h.hasBlock _, fun s' hs =>
      h.onHook .frame (fun filter => filter == (filter &&& current)) hs⟩
  | scriptCompleted =>
    exact ⟨fun _ => h.hasBlock _, fun s' hs => h.onHook .scriptCompleted (fun _ => true) hs⟩
  | reportFailure error => exact ⟨fun _ => h.hasBlock _, fun s' hs => h.reportFailure hs⟩

/-! ## Runs -/

/-- **The cursor of the test runner.**  In every interleaving of the entry points no hook reads a
block that does not exist, and the cursor is valid whenever a test is running, exactly if every call
that moves to another test finds a block in it; it does if every file that is loaded without an error
has a block. (test_runner.cpp:18-158, script_parse.cpp:784-825) -/
theorem cursor_valid_iff (calls : List Call) :
    ((∀ past, past <+: calls → ∃ s, run step {} past = some s ∧ CursorValid s) ↔
      Guarded step MovesToBlock {} calls) ∧
    ((∀ call ∈ calls, LoadsBlock call) → Guarded step MovesToBlock {} calls) := by
  constructor
  · refine guard_run (J := fun _ => True) ?_ ?_ trivial fun h => absurd h Bool.false_ne_true
    · intro s call _ hvalid hmoves
      obtain ⟨s', hs', hiff⟩ := cursorValid_step hvalid call
      exact ⟨s', hs', trivial, hiff.mpr hmoves⟩
    · intro s call s' _ hvalid hs' hvalid'
      obtain ⟨t, ht, hiff⟩ := cursorValid_step hvalid call
      rw [hs', some.injEq] at ht
      exact hiff.mp (ht ▸ hvalid')
  · intro hloads
    have hguarded : Guarded step (fun _ => LoadsBlock) {} calls :=
      guarded_of_forall_mem fun call hmem _ => hloads call hmem
    exact guarded_of_invariant (fun s call h hload => movesToBlock_of_loadsBlock h hload)
      (fun _ hmem => absurd hmem not_mem_nil) hguarded

/-- The test runner after `tas_test_run` of a file that does not exist: a test without blocks is
running, and the next frame reads a block of it. -/
theorem missing_test_file_runs :
    (∃ s, run step {} [.load false (str "id1/test/a.qtest") none] = some s ∧ ¬ CursorValid s) ∧
      run step {} [.load false (str "id1/test/a.qtest") none, .frame 0] = none := by
  refine ⟨⟨_, rfl, fun hvalid => ?_⟩, rfl⟩
  obtain ⟨test, ht, hlt⟩ := hvalid rfl
  cases ht
  exact absurd hlt (Nat.not_lt_zero _)

end TASQuake.Analysis.TestCursor
