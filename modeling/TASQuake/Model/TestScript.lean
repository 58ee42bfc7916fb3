import TASQuake.Model.ScriptText
import TASQuake.Model.Session

/-!
# Test scripts

Reading and writing the tests of the test runner (script_parse.cpp:774-927).  A test is a line
with its description and a line for each of its blocks.
-/

namespace TASQuake

open Lib Io

/-- `HookEnum`. -/
inductive HookEnum
  | frame
  | levelChange
  | scriptCompleted
deriving DecidableEq

/-- `TestBlock`. -/
structure TestBlock where
  hook : HookEnum := .frame
  hookCount : Int := 0
  afterframesFilter : UInt32 := 0
  command : Str := []
deriving DecidableEq

namespace TestBlock

/-- The letter of a hook; the switch has no case for `ScriptCompleted`.
(script_parse.cpp:855-865) -/
def hookText : HookEnum → Str
  | .frame => str "f"
  | .levelChange => str "l"
  | .scriptCompleted => []

/-- The digits of a filter. (script_parse.cpp:869-876) -/
def filterText (filter : UInt32) : Str :=
  (List.range 5).map fun i => if filter &&& UInt32.ofNat (4 - i) ≠ 0 then 49 else 48

/-- `TestBlock::Write_To_Stream`: the text written. (script_parse.cpp:853-880) -/
def writeToStream (self : TestBlock) : Str :=
  hookText self.hook ++ str "\t" ++ decimalInt self.hookCount ++ str "\t" ++
    filterText self.afterframesFilter ++ str "\t" ++ self.command ++ str "\n"

/-- The four groups of `lineregex`, if a line matches it. (script_parse.cpp:884-886) -/
def lineGroups? (line : Str) : Option (UInt8 × Str × Str × Str) :=
  let hook := line.headD 0
  let digits := (line.drop 2).takeWhile isDigitByte
  let behind := (line.drop 2).dropWhile isDigitByte
  let filter := (behind.drop 1).take 4
  let command := behind.drop 6
  if (hook = 102 ∨ hook = 108 ∨ hook = 115) ∧ (line)[1]? = some 9 ∧ digits ≠ [] ∧
      behind[0]? = some 9 ∧ filter.length = 4 ∧ (filter.all fun c => c == 48 || c == 49) ∧
      behind[5]? = some 9 ∧ 10 ∉ command then
    some (hook, digits, filter, command)
  else none

/-- The loop over the digits of the filter. (script_parse.cpp:900-907) -/
def parseFilter (filter : Str) : Except Str UInt32 :=
  filter.zipIdx.foldlM
    (fun (bits : UInt32) (digit : UInt8 × ℕ) =>
      if digit.1 = 49 then .ok (bits ||| (1 <<< UInt32.ofNat (4 - digit.2)))
      else if digit.1 ≠ 48 then .error (str "Invalid bit in filter.")
      else .ok bits) 0

/-- `TestBlock::TestBlock(line)`; the error is the text of the exception.
(script_parse.cpp:882-920) -/
def ofLine (line : Str) : Except Str TestBlock :=
  match lineGroups? line with
  | some (letter, digits, filter, command) => do
    let hookCount ← stoi digits
    let afterframesFilter ← parseFilter filter
    if hookCount < 0 then .error (str "Hook count cannot be negative.")
    else
      .ok
        { hook :=
            if letter = 102 then .frame else if letter = 108 then .levelChange else .scriptCompleted
          hookCount := hookCount
          afterframesFilter := afterframesFilter
          command := command }
  | none => .error (str "Unable to read all required variables from line.")

end TestBlock

/-- `TestScript`, without the block that runs after the test. -/
structure TestScript where
  fileName : Str := []
  description : Str := []
  blocks : List TestBlock := []
deriving DecidableEq

namespace TestScript

/-- What `Load_From_File` leaves behind: the value returned, the test, and the text logged. -/
structure LoadedTest where
  rval : Bool
  test : TestScript
  log : Str
deriving DecidableEq

/-- The body of the loop of `Load_From_File`, with the number of the line; an exception leaves
the test as it is. (script_parse.cpp:801-815) -/
def parseTestLine (self : TestScript × ℕ) (rawLine : Str) :
    Except ((TestScript × ℕ) × Str) (TestScript × ℕ) :=
  let (test, lineNumber) := self
  let currentLine := parseNewline rawLine
  if lineNumber = 0 then .ok ({ test with description := currentLine }, lineNumber + 1)
  else if isWhitespace currentLine then .ok (test, lineNumber + 1)
  else
    match TestBlock.ofLine currentLine with
    | .ok block => .ok ({ test with blocks := test.blocks ++ [block] }, lineNumber + 1)
    | .error what => .error ((test, lineNumber), what)

/-- `TestScript::Load_From_File`, for a file that does not exist or the content of one.
(script_parse.cpp:784-826) -/
def loadFromFile (self : TestScript) (file : Option Str) : LoadedTest :=
  match file with
  | none => ⟨true, self, str "Unable to open test " ++ TASScript.cStr self.fileName ++ str "\n"⟩
  | some content =>
    match forLinesOf content parseTestLine (self, 0) with
    | .ok (test, _) =>
      ⟨true, test, str "Test " ++ TASScript.cStr self.fileName ++ str " loaded with " ++
        decimal test.blocks.length ++ str " blocks.\n"⟩
    | .error ((test, lineNumber), what) =>
      ⟨false, test, str "Error parsing line " ++ decimal lineNumber ++ str ": " ++ what ++ str "\n"⟩

/-- `TestScript::Write_To_File`: the content of the file, or `none` if there is nothing to write.
(script_parse.cpp:828-851) -/
def writeToFile (self : TestScript) : Option Str :=
  if self.blocks = [] then none
  else some (self.description ++ str "\n" ++ self.blocks.flatMap TestBlock.writeToStream)

end TestScript

/-!
## The test runner

The static variables of tas/test_runner.cpp and the functions that load tests and move through their
blocks.  A hook that reads a test or a block that does not exist is undefined in the source and
`none` here.  The texts that go to the console and the queue of console commands are collected.
-/

/-- The static variables of test_runner.cpp. -/
structure TestRunner where
  testVector : List TestScript := []
  scriptIndex : ℕ := 0
  blockIndex : ℕ := 0
  testRunning : Bool := false
  hookCount : Int := 0
  generationRunning : Bool := false
  testOutput : Str := []
  afterframes : List AfterFrames := []
  printed : List Str := []
deriving DecidableEq

namespace TestRunner

/-- `TEST_VECTOR[SCRIPT_INDEX]`. -/
def currentTest (self : TestRunner) : Option TestScript := self.testVector[self.scriptIndex]?

/-- `TEST_VECTOR[SCRIPT_INDEX].blocks[BLOCK_INDEX]`. (test_runner.cpp:18-27) -/
def currentBlock (self : TestRunner) : Option TestBlock :=
  self.currentTest.bind fun test => test.blocks[self.blockIndex]?

/-- `Load_Test`; `fileName` is the text in `buf`, `file` the content of the file if there is one.
(test_runner.cpp:29-47) -/
def loadTest (self : TestRunner) (generate : Bool) (fileName : Str) (file : Option Str) :
    TestRunner :=
  let loaded := { fileName := fileName : TestScript }.loadFromFile file
  if !loaded.rval then self
  else
    { self with
      testVector := self.testVector ++ [loaded.test]
      scriptIndex := 0
      blockIndex := 0
      hookCount := 0
      testRunning := true
      generationRunning := generate }

/-- `AddAfterframes(0, cmd, NoFilter)`. -/
def addAfterframes (self : TestRunner) (cmd : Str) : TestRunner :=
  { self with
    afterframes := self.afterframes ++ [{ frames := 0, command := cmd, filter := noFilter }] }

/-- `StopTesting`. (test_runner.cpp:93-100) -/
def stopTesting (self : TestRunner) : TestRunner :=
  { self with
    testRunning := false
    generationRunning := false
    testOutput := []
    testVector := [] }.addAfterframes (str "tas_script_stop;disconnect")

/-- `StartNewTest`. (test_runner.cpp:102-124) -/
def startNewTest (self : TestRunner) (failed : Bool) : Option TestRunner := do
  let currentTest ← self.currentTest
  let self :=
    { self with
      scriptIndex := self.scriptIndex + 1
      blockIndex := 0
      hookCount := 0
      testOutput :=
        if failed then self.testOutput
        else self.testOutput ++ str "Test \"" ++ currentTest.description ++
          str "\" ran successfully.\n" }
  if self.testVector.length ≤ self.scriptIndex then
    let printed := self.printed ++ [self.testOutput]
    some
      { self with
        printed := if 1 < self.testVector.length then printed ++ [str "All tests were ran.\n"]
          else printed }.stopTesting
  else some self

/-- `BlockChange`. (test_runner.cpp:126-136) -/
def blockChange (self : TestRunner) : Option TestRunner := do
  let currentTest ← self.currentTest
  let self := { self with blockIndex := self.blockIndex + 1, hookCount := 0 }
  if currentTest.blocks.length ≤ self.blockIndex then self.startNewTest false else some self

/-- `HookIteration`. (test_runner.cpp:138-148) -/
def hookIteration (self : TestRunner) : Option TestRunner := do
  let self := { self with hookCount := self.hookCount + 1 }
  let currentBlock ← self.currentBlock
  if currentBlock.hookCount ≤ self.hookCount then
    (self.addAfterframes currentBlock.command).blockChange
  else some self

/-- What the three hooks have in common: an iteration if a test is running and its current block is
for the hook; `filterMatches` is the further condition on the block's filter. -/
def onHook (self : TestRunner) (hook : HookEnum) (filterMatches : UInt32 → Bool) :
    Option TestRunner :=
  if !self.testRunning then some self
  else do
    let currentBlock ← self.currentBlock
    if currentBlock.hook = hook && filterMatches currentBlock.afterframesFilter then
      self.hookIteration
    else some self

/-- `Test_Changelevel_Hook`. (test_runner.cpp:69-75) -/
def changelevelHook (self : TestRunner) : Option TestRunner := self.onHook .levelChange fun _ => true

/-- `Test_Runner_Frame_Hook`; `current` is `GetCurrentFilter()`.
(test_runner.cpp:77-83, afterframes.cpp:36-41) -/
def frameHook (self : TestRunner) (current : UInt32) : Option TestRunner :=
  self.onHook .frame fun filter => filter == (filter &&& current)

/-- `Test_Script_Completed_Hook`. (test_runner.cpp:85-91) -/
def scriptCompletedHook (self : TestRunner) : Option TestRunner :=
  self.onHook .scriptCompleted fun _ => true

/-- `ReportFailure`. (test_runner.cpp:150-158) -/
def reportFailure (self : TestRunner) (error : Str) : Option TestRunner :=
  if !self.testRunning then some self
  else do
    let currentTest ← self.currentTest
    { self with
      testOutput := self.testOutput ++ str "Test \"" ++ currentTest.description ++
        str "\" failed, reason: " ++ error ++ str "\n" }.startNewTest true

end TestRunner

end TASQuake
