import TASQuake.Model.ScriptText
import TASQuake.Model.Editing

/-!
# Saving a script and its backups

`TASScript::Write_To_File` with the backups that it moves out of the way first
(script_parse.cpp:374-458).  The file system is a map from names to contents: `rename` replaces its
target.  A buffer of 256 bytes that is written beyond its end is `none`.
-/

namespace TASQuake

open Lib TASScript

/-- The files by their names. -/
abbrev Files (C : Type) := Str → Option C

namespace Files

variable {C : Type}

/-- `std::remove`. -/
def remove (files : Files C) (name : Str) : Files C := fun n => if n = name then none else files n

/-- `std::rename`. -/
def rename (files : Files C) (old new : Str) : Files C :=
  fun n => if n = new then files old else if n = old then none else files n

/-- A file is created or written anew. -/
def write (files : Files C) (name : Str) (content : C) : Files C :=
  fun n => if n = name then some content else files n

end Files

/-- `sprintf` into one of the buffers. -/
def sprintf256 (text : Str) : Option Str := if text.length < 256 then some text else none

/-- The name up to its last dot, if it has one. -/
def withoutExtension? (fileName : Str) : Option Str :=
  let upToDot := fileName.rdropWhile fun c => c != 46
  if upToDot = [] then none else some upToDot.dropLast

/-- `Get_Backup_Save`: the name in the buffer, or `some none` if it returns false.
(script_parse.cpp:374-397) -/
def getBackupSave (fileName : Str) (backup : Int) : Option (Option Str) :=
  if backup = 0 then (sprintf256 fileName).map some
  else
    match withoutExtension? fileName with
    | none => some none
    | some withoutExt =>
      (sprintf256 (withoutExt.take 255 ++ str "-" ++ decimalInt backup ++ str ".qtas")).map some

/-- The loop of `Move_Saves`, for the indices below the first argument; `newName` is the name that
the round before has left. (script_parse.cpp:418-431) -/
def moveSavesLoop {C : Type} (fileName : Str) : ℕ → Str → Files C → Option (Bool × Files C)
  | 0, _, files => some (true, files)
  | i + 1, newName, files => do
    match ← getBackupSave fileName i with
    | none => some (false, files)
    | some oldName =>
      let files := if (files oldName).isSome then files.rename oldName newName else files
      moveSavesLoop fileName i oldName files

/-- `Move_Saves`. (script_parse.cpp:399-432) -/
def moveSaves {C : Type} (backups : Int) (fileName : Str) (files : Files C) :
    Option (Bool × Files C) :=
  if backups ≤ 0 then some (true, files)
  else do
    match ← getBackupSave fileName (backups - 1) with
    | none => some (false, files)
    | some newName =>
      let files := if (files newName).isSome then files.remove newName else files
      moveSavesLoop fileName (backups - 1).toNat newName files

/-- `TASScript::Write_To_File`; `canWrite` is whether the file can be opened.
(script_parse.cpp:434-458) -/
def TASScript.saveToFile {F : Type} (env : TextEnv F) (backups : Int) (canWrite : Bool)
    (script : TASScript F) (files : Files Str) : Option (Files Str) :=
  if script.blocks.isEmpty then some files
  else do
    let (result, files) ← moveSaves backups (cStr script.fileName) files
    if result && canWrite then
      let content ← writeToFile env script.blocks
      some (files.write (cStr script.fileName) content)
    else some files

/-!
## Loading a script into the session

`TAS_Script_Load` (script_playback.cpp:472-484) with the bookmarks (bookmark.cpp:9-34) and the file
that the script is read from.
-/

/-- `BookmarkType`. -/
inductive BookmarkType where
  | frame
  | block
  | map
deriving DecidableEq

/-- `Bookmark`. -/
structure Bookmark where
  index : Int := 0
  type : BookmarkType := .frame
deriving DecidableEq

/-- The session with its bookmarks. -/
structure LoadState (F : Type) where
  session : Session F
  /-- `bookmarks` -/
  bookmarks : OrderedMap Str Bookmark := .empty

/-- `TASScript::Load_From_File`: the result, the script and the text logged.
(script_parse.cpp:287-298) -/
def TASScript.load {F : Type} (env : TextEnv F) (script : TASScript F) (files : Files Str) :
    Bool × TASScript F × Str :=
  match files (cStr script.fileName) with
  | none =>
    (false, script,
      str "Unable to open script " ++ cStr script.fileName ++ str "\n")
  | some content =>
    let loaded := loadFromFile env script.blocks content
    (loaded.rval, { script with blocks := loaded.blocks }, loaded.log)

/-- `TAS_Script_Load`: the result, the session and the text printed.
(tas/script_playback.cpp:472-484) -/
def LoadState.scriptLoad {F : Type} (textEnv : TextEnv F) (env : HostEnv) (self : LoadState F)
    (name : Str) (files : Files Str) : Bool × LoadState F × Str :=
  let (result, script, log) := load textEnv { fileName := name } files
  -- the bookmarks, the savestates and the script are replaced whatever the result is
  let self : LoadState F := { session := self.session.scriptLoad env script, bookmarks := .empty }
  let printed :=
    if result then
      str "Script " ++ cStr script.fileName ++ str " loaded with " ++
        decimal script.blocks.length ++ str " blocks.\n"
    else []
  (result, self, log ++ printed)

end TASQuake
