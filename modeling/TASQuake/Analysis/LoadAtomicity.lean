import TASQuake.Analysis.LoadedFrames
import TASQuake.Model.Backups

/-!
# A failed load

`TAS_Script_Load` throws away the bookmarks, the savestates and the script before it reads the file.
If this fails, the blocks in front of the line that failed are the script, under the name of the
file.  A file fails at its first header whose number is no `int`.
-/

namespace TASQuake.Analysis.LoadAtomicity

open Io TASScript Lib FrameBlock Loader SortedMap LoadState List
open LoaderAgreement LoadedFrames

variable {F : Type} (textEnv : TextEnv F)

/-! ## The lines in front of a failure -/

/-- A text made of whole lines. -/
def WholeLines (content : Str) : Prop := content = [] ∨ ∃ before, content = before ++ [10]

theorem WholeLines.exists_lines {before : Str} (h : WholeLines before) :
    ∃ lines, ∀ rest, (before ++ rest).splitOn 10 = lines ++ rest.splitOn 10 := by
  rcases h with rfl | ⟨before, rfl⟩
  · exact ⟨[], fun rest => rfl⟩
  · refine ⟨before.splitOn 10, fun rest => ?_⟩
    rw [append_assoc, singleton_append, splitOn_append_cons]

/-- The first line of a text. -/
def firstLine (content : Str) : Str := content.takeWhile fun c => c != 10

theorem firstLine_of_notMem {content : Str} (h : 10 ∉ content) : firstLine content = content := by
  refine takeWhile_eq_self_iff.mpr fun c hc => ?_
  simpa using ne_of_mem_of_not_mem hc h

theorem firstLine_append_cons {line : Str} (h : 10 ∉ line) (rest : Str) :
    firstLine (line ++ 10 :: rest) = line := by
  have hkeep : ∀ c ∈ line, (c != 10) = true := by
    intro c hc
    simpa using ne_of_mem_of_not_mem hc h
  unfold firstLine
  rw [takeWhile_append_of_pos hkeep, takeWhile_cons_of_neg (by decide), append_nil]

theorem exists_splitOn_eq_firstLine_cons (content : Str) :
    ∃ lines, content.splitOn 10 = firstLine content :: lines := by
  by_cases hmem : 10 ∈ content
  · obtain ⟨line, rest, rfl, hline⟩ := eq_append_cons_of_mem hmem
    rw [firstLine_append_cons hline]
    exact ⟨_, splitOn_append_cons_self_of_not_mem hline rest⟩
  · rw [firstLine_of_notMem hmem]
    exact ⟨[], splitOn_eq_singleton hmem⟩

/-- A text fails at its first line: a header whose number is no `int`. -/
def FailsAtOnce (content : Str) : Prop :=
  ∃ header, frameNumber? (parseNewline (firstLine content)) = some header ∧ ¬ NumberFits header

/-- All headers of a text have numbers that are `int`s. -/
def AllFit (content : Str) : Prop := ∀ h ∈ headers (content.splitOn 10), NumberFits h

theorem headers_append (lines lines' : List Str) :
    headers (lines ++ lines') = headers lines ++ headers lines' := filterMap_append

theorem failsAtOnce_or (content : Str) :
    FailsAtOnce content ∨ ∀ h ∈ headers [firstLine content], NumberFits h := by
  by_cases hfails : FailsAtOnce content
  · exact Or.inl hfails
  · refine Or.inr fun header hheader => ?_
    by_contra hbig
    obtain ⟨line, hline, hframe⟩ := mem_filterMap.mp hheader
    rw [mem_singleton.mp hline] at hframe
    exact hfails ⟨header, hframe, hbig⟩

theorem allFit_append_cons_iff {line : Str} (hline : 10 ∉ line)
    (hfits : ∀ h ∈ headers [line], NumberFits h) (rest : Str) :
    AllFit (line ++ 10 :: rest) ↔ AllFit rest := by
  unfold AllFit
  rw [splitOn_append_cons_self_of_not_mem hline, ← singleton_append, headers_append,
    forall_mem_append]
  exact and_iff_right hfits

theorem WholeLines.append_cons {before : Str} (h : WholeLines before) (line : Str) :
    WholeLines (line ++ 10 :: before) := by
  rcases h with rfl | ⟨before, rfl⟩
  · exact Or.inr ⟨line, rfl⟩
  · exact Or.inr ⟨line ++ 10 :: before, by rw [append_assoc, cons_append]⟩

theorem exists_failure {content : Str} (h : ¬ AllFit content) :
    ∃ before failing, content = before ++ failing ∧ WholeLines before ∧ AllFit before ∧
      FailsAtOnce failing := by
  induction content using record_induction (a := (10 : UInt8)) with
  | last content hcontent =>
    rcases failsAtOnce_or content with hfails | hfits
    · exact ⟨[], content, rfl, Or.inl rfl, fun h hmem => absurd hmem not_mem_nil, hfails⟩
    · refine absurd ?_ h
      unfold AllFit
      rw [firstLine_of_notMem hcontent] at hfits
      rw [splitOn_eq_singleton hcontent]
      exact hfits
  | record line rest hline ih =>
    rcases failsAtOnce_or (line ++ 10 :: rest) with hfails | hfits
    · exact ⟨[], _, rfl, Or.inl rfl, fun h hmem => absurd hmem not_mem_nil, hfails⟩
    · rw [firstLine_append_cons hline] at hfits
      rw [allFit_append_cons_iff hline hfits] at h
      obtain ⟨before, failing, rfl, hwhole, hbefore, hfailing⟩ := ih h
      exact ⟨line ++ 10 :: before, failing, by rw [append_assoc, cons_append],
        hwhole.append_cons line, (allFit_append_cons_iff hline hfits before).mpr hbefore, hfailing⟩

/-! ## What a failure leaves -/

theorem parse_of_not_fits (st : Loader F) {line : Str} {header : Bool × Str}
    (h : frameNumber? (parseNewline line) = some header) (hbig : ¬ NumberFits header) :
    ∃ st' what, st.parse textEnv line = .error (st', what) ∧ st'.blocks = st.finish := by
  have hframe : isFrameNumber (parseNewline line) = true := by
    unfold isFrameNumber
    rw [h]
    rfl
  have hstoi : stoi header.2 = .error (str "stoi") := if_neg hbig
  unfold parse finish
  simp only [hframe, Bool.true_and, parseLine_eq, h, parseFrameNo, hstoi]
  cases st.fb.parsed with
  | true => exact ⟨_, _, rfl, rfl⟩
  | false => exact ⟨_, _, rfl, rfl⟩

theorem loadFromFile_of_failure {before failing : Str} (hwhole : WholeLines before)
    (hfits : AllFit before) (hfails : FailsAtOnce failing) :
    (loadFromFile textEnv [] (before ++ failing)).rval = false ∧
      (loadFromFile textEnv [] (before ++ failing)).blocks =
        (loadFromFile textEnv [] before).blocks := by
  obtain ⟨lines, hlines⟩ := hwhole.exists_lines
  obtain ⟨rest, hrest⟩ := exists_splitOn_eq_firstLine_cons failing
  obtain ⟨header, hheader, hbig⟩ := hfails
  have hsplit : before.splitOn 10 = lines ++ [[]] := by
    have hempty := hlines []
    rw [append_nil] at hempty
    exact hempty
  have hok : ∃ st, lines.foldlM (parse textEnv) {} = .ok st := by
    rcases foldlM_parse_frames textEnv lines {} with ⟨st, hfold, -⟩ | ⟨e, -, h, hmem, hnot⟩
    · exact ⟨st, hfold⟩
    · refine absurd (hfits h ?_) hnot
      rw [hsplit, headers_append]
      exact mem_append_left _ hmem
  obtain ⟨st, hfold⟩ := hok
  obtain ⟨st', what, herror, hblocks⟩ := parse_of_not_fits textEnv st hheader hbig
  have hwholeFile := loadFromFile_outcome textEnv [] (before ++ failing)
  have hbefore := loadFromFile_outcome textEnv [] before
  unfold linesOutcome at hwholeFile hbefore
  rw [hlines, hrest, foldlM_append, hfold] at hwholeFile
  rw [hsplit, foldlM_append, hfold] at hbefore
  have hfailed : outcome ((firstLine failing :: rest).foldlM (parse textEnv) st) =
      (false, st.finish) := by
    rw [foldlM_cons, herror, ← hblocks]
    rfl
  have hloaded := linesOutcome_nil textEnv st
  obtain ⟨hrval, hleft⟩ := Prod.mk.inj (hwholeFile.trans hfailed)
  obtain ⟨-, hright⟩ := Prod.mk.inj (hbefore.trans hloaded)
  exact ⟨hrval, hleft.trans hright.symm⟩

/-! ## The session -/

/-- The script, the bookmarks and the savestates are as before. -/
structure Intact (before after : LoadState F) : Prop where
  fileName : after.session.playback.currentScript.fileName =
    before.session.playback.currentScript.fileName
  blocks : after.session.blocks = before.session.blocks
  bookmarks : after.bookmarks = before.bookmarks
  savestates : after.session.savestates.savestateMap = before.session.savestates.savestateMap

/-- What can be read of a file that cannot be loaded. -/
inductive ReadBefore : Option Str → List (FrameBlock F) → Prop
  | missing : ReadBefore none []
  | failing {before failing : Str} (hwhole : WholeLines before) (hfits : AllFit before)
      (hfails : FailsAtOnce failing) :
      ReadBefore (some (before ++ failing)) (loadFromFile textEnv [] before).blocks

/-- A session that a failed load of a file does not change. -/
structure NothingToLose (before : LoadState F) (name : Str) (files : Files Str) : Prop where
  fileName : before.session.playback.currentScript.fileName = name
  blocks : ReadBefore textEnv (files (cStr name)) before.session.blocks
  bookmarks : before.bookmarks = .empty
  savestates : ∀ frame ∈ before.session.savestates.keys, frame ≤ 0

/-- The file exists and all its headers have numbers that are `int`s. -/
def Loads (file : Option Str) : Prop := ∃ content, file = some content ∧ AllFit content

theorem eraseAbove_eq_self_iff {κ ν : Type} [LinearOrder κ] (m : SortedMap κ ν) (k : κ) :
    m.eraseAbove k = m ↔ ∀ key ∈ m.entries.map Prod.fst, key ≤ k := by
  rw [forall_mem_map]
  constructor
  · intro h e he
    rw [← h] at he
    exact (mem_eraseAbove.mp he).2
  · intro h
    exact ext (takeWhile_eq_self_iff.mpr fun e he => decide_eq_true (h e he))

theorem result_scriptLoad (env : HostEnv) (self : LoadState F) (name : Str) (files : Files Str) :
    (self.scriptLoad textEnv env name files).1 = true ↔ Loads (files (cStr name)) := by
  unfold scriptLoad TASScript.load Loads
  cases files (cStr name) with
  | none =>
    constructor
    · intro h
      cases h
    · rintro ⟨content, h, -⟩
      cases h
  | some content =>
    have houtcome := loadFromFile_outcome textEnv [] content
    unfold linesOutcome at houtcome
    show (loadFromFile textEnv [] content).rval = true ↔ _
    rcases foldlM_parse_frames textEnv (content.splitOn 10) {} with
      ⟨st, hfold, hfits, -⟩ | ⟨e, hfold, h, hmem, hbig⟩
    · rw [hfold] at houtcome
      rw [(Prod.mk.inj houtcome).1]
      exact ⟨fun _ => ⟨content, rfl, hfits⟩, fun _ => rfl⟩
    · rw [hfold] at houtcome
      rw [(Prod.mk.inj houtcome).1]
      constructor
      · intro hfalse
        cases hfalse
      · rintro ⟨content', heq, hall⟩
        cases heq
        exact absurd (hall h hmem) hbig

theorem readBefore_iff {file : Option Str} (h : ¬ Loads file) (blocks : List (FrameBlock F)) :
    ReadBefore textEnv file blocks ↔
      blocks = (file.map fun content => (loadFromFile textEnv [] content).blocks).getD [] := by
  constructor
  · intro hread
    cases hread with
    | missing => rfl
    | failing hwhole hfits hfails =>
      exact (loadFromFile_of_failure textEnv hwhole hfits hfails).2.symm
  · intro hblocks
    cases file with
    | none =>
      rw [hblocks]
      exact ReadBefore.missing
    | some content =>
      obtain ⟨before, failing, rfl, hwhole, hfits, hfails⟩ :=
        exists_failure fun hall => h ⟨content, rfl, hall⟩
      have hsame := (loadFromFile_of_failure textEnv hwhole hfits hfails).2
      rw [hblocks]
      show ReadBefore textEnv _ (loadFromFile textEnv [] (before ++ failing)).blocks
      rw [hsame]
      exact ReadBefore.failing hwhole hfits hfails

theorem blocks_scriptLoad (env : HostEnv) (self : LoadState F) (name : Str) (files : Files Str) :
    (self.scriptLoad textEnv env name files).2.1.session.blocks =
      ((files (cStr name)).map fun content => (loadFromFile textEnv [] content).blocks).getD [] := by
  unfold scriptLoad TASScript.load
  cases files (cStr name) with
  | none => rfl
  | some content => rfl

theorem fileName_scriptLoad (env : HostEnv) (self : LoadState F) (name : Str) (files : Files Str) :
    (self.scriptLoad textEnv env name files).2.1.session.playback.currentScript.fileName =
      name := by
  unfold scriptLoad TASScript.load
  cases files (cStr name) with
  | none => rfl
  | some content => rfl

/-- **A load that fails leaves the session intact exactly if there was nothing to lose:** no
bookmark, no savestate behind frame 0, and the script was already what could be read of the
file. -/
theorem failed_load_intact_iff (env : HostEnv) (self : LoadState F) (name : Str)
    (files : Files Str) :
    (¬ Loads (files (cStr name)) →
        (self.scriptLoad textEnv env name files).1 = false ∧
          Intact self (self.scriptLoad textEnv env name files).2.1) ↔
      (¬ Loads (files (cStr name)) → NothingToLose textEnv self name files) := by
  have hblocks := blocks_scriptLoad textEnv env self name files
  have hname := fileName_scriptLoad textEnv env self name files
  refine imp_congr_right fun hfails => ?_
  have hresult : (self.scriptLoad textEnv env name files).1 = false := by
    rw [← Bool.not_eq_true, result_scriptLoad]
    exact hfails
  constructor
  · rintro ⟨-, h⟩
    refine ⟨h.fileName.symm.trans hname, ?_, h.bookmarks.symm, ?_⟩
    · rw [readBefore_iff textEnv hfails, ← hblocks]
      exact h.blocks.symm
    · exact (eraseAbove_eq_self_iff _ _).mp h.savestates
  · intro h
    refine ⟨hresult, hname.trans h.fileName.symm, ?_, h.bookmarks.symm, ?_⟩
    · rw [hblocks]
      exact ((readBefore_iff textEnv hfails _).mp h.blocks).symm
    · exact (eraseAbove_eq_self_iff _ _).mpr h.savestates

/-! ## A session that is lost -/

/-- A script with an edit that has not been saved, a bookmark and a savestate. -/
def edited : LoadState Unit :=
  { session :=
      { playback := { currentScript :=
          { fileName := str "a.qtas", blocks := [{ frame := 9, parsed := true }] } }
        viewPitch := (), viewYaw := (), oldAngles := ((), ()), currentStrafeyaw := ()
        currentStrafepitch := (), currentYaw := (), currentPitch := ()
        savestates :=
          { savestateMap := empty.put 7
              { frame := 7, number := 0, map := [], snapshot := [] } }
        drag := { originalStrafeyaw := () } }
    bookmarks := OrderedMap.empty.put (str "b") { index := 5 } }

/-- A file whose second header is too large. -/
def brokenFile : Files Str :=
  Files.write (fun _ => none) (str "a.qtas") (str "1:\n+a\n99999999999:\n+b\n")

/-- The bookmark, the savestate and the script are gone, and saving the script replaces the file by
what was read in front of the failure. -/
theorem failed_load_loses_session :
    let textEnv : TextEnv Unit := ⟨fun _ => false, fun _ => [], fun _ => ()⟩
    let (result, after, _) := edited.scriptLoad textEnv default (str "a.qtas") brokenFile
    result = false ∧ after.session.blocks.map frame = [1] ∧
      edited.session.blocks.map frame = [9] ∧
      after.bookmarks.values = [] ∧ edited.bookmarks.values ≠ [] ∧
      after.session.savestates.keys = [] ∧ edited.session.savestates.keys = [7] ∧
      (after.session.playback.currentScript.saveToFile textEnv 0 true brokenFile).map
        (fun files => files (str "a.qtas")) = some (some (str "+1:\n\t+a\n")) := by
  decide +kernel

end TASQuake.Analysis.LoadAtomicity
