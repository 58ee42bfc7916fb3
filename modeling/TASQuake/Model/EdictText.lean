import Mathlib.Data.List.DropRight
import TASQuake.Lib.Decimal
import TASQuake.Model.Script

/-!
# The text of edicts and globals

The functions of savestate.cpp that write the variables of an edict and the saved globals as pairs
of quoted strings and a closing brace, and those that parse them.  Messages to the console are left
out.

The texts in memory are lists of bytes up to their NUL.  `ED_NewString` copies a string to the hunk;
the copies made so far are kept in order, and `Engine.address` says where the next one comes to lie.
-/

namespace TASQuake

open Lib

/-!
## The program tables and the edicts of the server

The tables of progs.dat that savestates use: the fields of an edict, the globals and the functions,
each with the name that its `s_name` points to.  The variables of an edict, and the globals, are
32-bit words; a float is its bit pattern.

A `Fault` is where the engine does not go on: `Sys_Error` and `Host_Error`, or an access to memory
that is not there.
-/

/-- A variable of the game program. -/
abbrev Word := BitVec 32

/-- `etype_t`. (pr_comp.h:26-29) -/
inductive EType where
  | void
  | string
  | float
  | vector
  | entity
  | field
  | function
  | pointer
deriving DecidableEq, Inhabited

/-- `type_size`. (pr_edict.c:38) -/
def EType.size : EType → ℕ
  | .vector => 3
  | _ => 1

/-- `ddef_t`; `saveGlobal` is the bit `DEF_SAVEGLOBAL` of its type. (pr_comp.h:128-135) -/
structure Def where
  type : EType
  ofs : ℕ
  name : Str
  saveGlobal : Bool := false
deriving DecidableEq, Inhabited

/-- The tables of progs.dat; of a function only the name is used. -/
structure Progs where
  fieldDefs : List Def
  globalDefs : List Def
  functions : List Str
deriving DecidableEq

/-- What ends the reading or the writing of a savestate. -/
inductive Fault where
  | sysError (text : Str)
  | hostError (text : Str)
  /-- an access behind the end of an array or through a null pointer -/
  | undefined
deriving DecidableEq

/-- `edict_t`: its variables and whether it is in use. -/
structure Edict where
  free : Bool := false
  v : ℕ → Word := fun _ => 0

/-- The server, as far as it is saved in text. -/
structure Server where
  progs : Progs
  /-- the text at an offset from `pr_strings` -/
  strings : Word → Str
  /-- `pr_edict_size` -/
  edictSize : ℕ
  /-- `sv.num_edicts` -/
  numEdicts : Int
  /-- `pr_globals` -/
  globals : ℕ → Word
  edicts : ℕ → Edict

/-- `sv.max_edicts`, which is `MAX_EDICTS`. (quakedef.h:76, sv_main.c:1076) -/
def maxEdicts : Int := 2048

namespace Progs

variable (self : Progs)

/-- `ED_FieldAtOfs`. (savestate.cpp:175-188) -/
def fieldAtOfs (ofs : Int) : Option Def := self.fieldDefs.find? fun d => decide ((d.ofs : Int) = ofs)

/-- `ED_FindField`. (savestate.cpp:196-209) -/
def findField (name : Str) : Option Def := self.fieldDefs.find? fun d => decide (d.name = name)

/-- `ED_FindGlobal`. (savestate.cpp:619-632) -/
def findGlobal (name : Str) : Option Def := self.globalDefs.find? fun d => decide (d.name = name)

/-- `ED_FindFunction`: the number of the function. (pr_edict.c:269-282) -/
def findFunction (name : Str) : Option ℕ := self.functions.findIdx? fun f => decide (f = name)

end Progs

/-- `EDICT_NUM`: the number of the edict, which stands for its address. (pr_edict.c:1096-1102) -/
def edictNum (n : Int) : Except Fault ℕ :=
  if n < 0 ∨ maxEdicts ≤ n then .error (.sysError (str "EDICT_NUM: bad number " ++ decimalInt n))
  else .ok n.toNat

/-- `NUM_FOR_EDICT(PROG_TO_EDICT(e))`. (pr_edict.c:1104-1115) -/
def Server.numForEdict (self : Server) (e : Word) : Except Fault Int :=
  let b := e.toInt.tdiv self.edictSize
  if b < 0 ∨ self.numEdicts ≤ b then .error (.sysError (str "NUM_FOR_EDICT: bad pointer"))
  else .ok b

/-- `EDICT_TO_PROG(EDICT_NUM(n))`. -/
def Server.edictToProg (self : Server) (n : ℕ) : Word := BitVec.ofNat 32 (n * self.edictSize)

/-- What savestates use of the C library and of the hunk. -/
structure Engine where
  /-- `atof`, stored as a `float` -/
  atof : Str → Word
  /-- the offset from `pr_strings` of the next copy, by the copies made before -/
  address : List Str → Word

/-! ## Writing -/

/-- `sprintf` to `line[256]`. -/
def sprintfLine (text : Str) : Except Fault Str :=
  if text.length < 256 then .ok text else .error .undefined

/-- `_PR_UglyValueString`; `val` are the words from the value on. (savestate.cpp:375-421) -/
def uglyValueString (sv : Server) (type : EType) (val : ℕ → Word) : Except Fault Str :=
  match type with
  | .string => sprintfLine (sv.strings (val 0))
  | .entity => do
    let n ← sv.numForEdict (val 0)
    sprintfLine (decimalInt n)
  | .function =>
    -- `pr_functions + val->function`
    match (val 0).toInt with
    | .ofNat f =>
      match sv.progs.functions[f]? with
      | some name => sprintfLine name
      | none => .error .undefined
    | .negSucc _ => .error .undefined
  | .field =>
    match sv.progs.fieldAtOfs (val 0).toInt with
    | some d => sprintfLine d.name
    | none => .error .undefined
  | .void => sprintfLine (str "void")
  | .float => sprintfLine (decimalInt (val 0).toInt)
  | .vector =>
    sprintfLine (decimalInt (val 0).toInt ++ str " " ++ decimalInt (val 1).toInt ++ str " " ++
      decimalInt (val 2).toInt)
  | .pointer => sprintfLine (str "bad type 7")

/-- A name and a value, as both writers put them out. -/
def writePair (name value : Str) : Str :=
  str "\"" ++ name ++ str "\" " ++ (str "\"" ++ value ++ str "\"\n")

/-- The words of a variable. -/
def wordsAt (v : ℕ → Word) (ofs : ℕ) : ℕ → Word := fun j => v (ofs + j)

/-- The value is still all 0. -/
def isZero (type : EType) (val : ℕ → Word) : Bool :=
  (List.range type.size).all fun j => val j == 0

/-- The loop of `ED_Write`. -/
def writeFields (sv : Server) (v : ℕ → Word) : List Def → Except Fault Str
  | [] => .ok []
  | d :: defs =>
    if isZero d.type (wordsAt v d.ofs) then writeFields sv v defs
    else do
      let value ← uglyValueString sv d.type (wordsAt v d.ofs)
      let rest ← writeFields sv v defs
      .ok (writePair d.name value ++ rest)

/-- `ED_Write`; the first definition of the table is left out. (savestate.cpp:447-475) -/
def edWrite (sv : Server) (v : ℕ → Word) : Except Fault Str := do
  let fields ← writeFields sv v (sv.progs.fieldDefs.drop 1)
  .ok (fields ++ str "\x7d")

/-- A global that `ED_WriteGlobals` writes. -/
def Def.isSaved (d : Def) : Bool :=
  d.saveGlobal &&
    (decide (d.type = .string) || decide (d.type = .float) || decide (d.type = .entity))

/-- The loop of `ED_WriteGlobals`. -/
def writeGlobals (sv : Server) : List Def → Except Fault Str
  | [] => .ok []
  | d :: defs =>
    if d.isSaved then do
      let value ← uglyValueString sv d.type (wordsAt sv.globals d.ofs)
      let rest ← writeGlobals sv defs
      .ok (writePair d.name value ++ rest)
    else writeGlobals sv defs

/-- `ED_WriteGlobals`. (savestate.cpp:423-445) -/
def edWriteGlobals (sv : Server) : Except Fault Str := do
  let globals ← writeGlobals sv sv.progs.globalDefs
  .ok (globals ++ str "\x7d")

/-! ## Tokens -/

/-- `c <= ' '`, for a `char` with a sign. -/
def isBlankByte (c : UInt8) : Bool := decide (c ≤ 32) || decide (128 ≤ c)

/-- The part of `COM_Parse` before the token; the flag says that `data` is in a comment.
(common.c:796-812) -/
def skipWhite : Bool → Str → Str
  | _, [] => []
  | true, c :: rest => if c = 10 then skipWhite false rest else skipWhite true rest
  | false, c :: rest =>
    if isBlankByte c then skipWhite false rest
    else if c = 47 ∧ rest.head? = some 47 then skipWhite true rest
    else c :: rest

/-- The characters that are tokens of their own: braces, parentheses, the single quote. -/
def isSingle (c : UInt8) : Bool :=
  decide (c = 123) || decide (c = 125) || decide (c = 41) || decide (c = 40) || decide (c = 39)

/-- The token is stored in `com_token[1024]`. -/
def token (text : Str) (data : Option Str) : Except Fault (Str × Option Str) :=
  if text.length < 1024 then .ok (text, data) else .error .undefined

/-- `COM_Parse`: the token and what is behind it, or no pointer at the end of the text.  Behind a
quoted string without end the text is not known. (common.c:786-854) -/
def comParse (data : Str) : Except Fault (Str × Option Str) :=
  match skipWhite false data with
  | [] => .ok ([], none)
  | c :: rest =>
    if c = 34 then
      match rest.dropWhile fun c => decide (c ≠ 34) with
      | [] => .error .undefined
      | _ :: behind => token (rest.takeWhile fun c => decide (c ≠ 34)) (some behind)
    else if isSingle c || decide (c = 58) then token [c] (some rest)
    else
      let word := rest.takeWhile fun c => !(isSingle c || isBlankByte c)
      token (c :: word) (some (rest.drop word.length))

/-! ## Parsing -/

/-- The variables being parsed and the strings copied so far. -/
structure Parsed where
  v : ℕ → Word
  copies : List Str := []

/-- The text that `ED_NewString` makes of a string. (pr_edict.c:717-726) -/
def newString : Str → Str
  | 92 :: c :: rest => (if c = 110 then 10 else 92) :: newString rest
  | c :: rest => c :: newString rest
  | [] => []

/-- Store a word. -/
def Parsed.set (self : Parsed) (ofs : ℕ) (w : Word) : Parsed :=
  { self with v := Function.update self.v ofs w }

/-- The numbers of a vector, of which the first two end at a blank; behind the end of the string
nothing is known. (savestate.cpp:236-245) -/
def vectorPieces (s : Str) : Except Fault (Str × Str × Str) :=
  let piece := fun s : Str => s.takeWhile fun c => decide (c ≠ 32)
  match s.dropWhile fun c => decide (c ≠ 32) with
  | [] => .error .undefined
  | _ :: second =>
    match second.dropWhile fun c => decide (c ≠ 32) with
    | [] => .error .undefined
    | _ :: third => .ok (piece s, piece second, piece third)

/-- `_ED_ParseEpair`; `none` is a value that is not found. (savestate.cpp:211-278) -/
def parseEpair (eng : Engine) (sv : Server) (globals : ℕ → Word) (base : Parsed) (key : Def)
    (s : Str) : Except Fault (Option Parsed) :=
  match key.type with
  | .string =>
    .ok (some { base.set key.ofs (eng.address base.copies) with
      copies := base.copies ++ [newString s] })
  | .float => .ok (some (base.set key.ofs (BitVec.ofInt 32 (atoi s))))
  | .vector =>
    -- `strcpy` to `string[128]`
    if 128 ≤ s.length then .error .undefined
    else do
      let (x, y, z) ← vectorPieces s
      .ok (some (((base.set key.ofs (eng.atof x)).set (key.ofs + 1) (eng.atof y)).set (key.ofs + 2)
        (eng.atof z)))
  | .entity => do
    let n ← edictNum (atoi s)
    .ok (some (base.set key.ofs (sv.edictToProg n)))
  | .field => .ok ((sv.progs.findField s).map fun d => base.set key.ofs (globals d.ofs))
  | .function =>
    .ok ((sv.progs.findFunction s).map fun f => base.set key.ofs (BitVec.ofNat 32 f))
  | .void => .ok (some base)
  | .pointer => .ok (some base)

/-- The error of both parsers when the text ends. -/
def eofError : Fault := .sysError (str "ED_ParseEntity: EOF without closing brace")

/-- The error of both parsers when there is no value. -/
def braceError : Fault := .sysError (str "ED_ParseEntity: closing brace without data")

/-- The loop of both parsers: a key, which is copied to an array of `keySize` characters, and a
value, until a token that starts with a closing brace.  Every pair takes up some of the text, so
its length bounds the number of rounds. -/
def parsePairs {σ : Type} (keySize : ℕ) (pair : Str → Str → σ → Except Fault σ) :
    ℕ → Str → σ → Except Fault σ
  | 0, _, _ => .error .undefined
  | fuel + 1, data, state => do
    let (key, data) ← comParse data
    if key.head? = some 125 then .ok state
    else
      match data with
      | none => .error eofError
      | some data =>
        if keySize ≤ key.length then .error .undefined
        else do
          let (value, data) ← comParse data
          match data with
          | none => .error eofError
          | some data =>
            if value.head? = some 125 then .error braceError
            else do
              let state ← pair key value state
              parsePairs keySize pair fuel data state

/-- What `SS_ED_ParseEdict` makes of a key: `angle` and `light` stand for other fields, and blanks
at the end are dropped. (savestate.cpp:314-336) -/
def edictKey (key : Str) : Str :=
  (if key = str "angle" then str "angles"
    else if key = str "light" then str "light_lev"
    else key).rdropWhile fun c => decide (c = 32)

/-- What `SS_ED_ParseEdict` makes of a value: that of `angle` becomes a vector; it is copied to
`temp[32]`. (savestate.cpp:357-363) -/
def edictValue (key value : Str) : Except Fault Str :=
  if key = str "angle" then
    if value.length < 32 then .ok (str "0 " ++ value ++ str " 0") else .error .undefined
  else .ok value

/-- What `SS_ED_ParseEdict` does with a pair; the flag is `init`. (savestate.cpp:345-366) -/
def edictPair (eng : Engine) (sv : Server) (key value : Str) (state : Parsed × Bool) :
    Except Fault (Parsed × Bool) :=
  if (edictKey key).head? = some 95 then .ok (state.1, true)
  else
    match sv.progs.findField (edictKey key) with
    | none => .ok (state.1, true)
    | some d => do
      let value ← edictValue key value
      match ← parseEpair eng sv sv.globals state.1 d value with
      | none => .error (.hostError (str "ED_ParseEdict: parse error"))
      | some base => .ok (base, true)

/-- `SS_ED_ParseEdict` on edict `n`, and the copies of strings; the variables of the world are not
cleared. (savestate.cpp:289-373) -/
def ssEdParseEdict (eng : Engine) (sv : Server) (copies : List Str) (data : Str) (n : ℕ)
    (ent : Edict) : Except Fault (Edict × List Str) := do
  let v := if n = 0 then ent.v else fun _ => 0
  let (base, init) ← parsePairs 256 (edictPair eng sv) (data.length + 1) data
    ({ v := v, copies := copies }, false)
  .ok ({ free := if init then ent.free else true, v := base.v }, base.copies)

/-- What `SS_ED_ParseGlobals` does with a pair. (savestate.cpp:656-664) -/
def globalPair (eng : Engine) (sv : Server) (key value : Str) (base : Parsed) :
    Except Fault Parsed :=
  match sv.progs.findGlobal key with
  | none => .ok base
  | some d => do
    match ← parseEpair eng sv base.v base d value with
    | none => .error (.hostError (str "ED_ParseGlobals: parse error"))
    | some base => .ok base

/-- `SS_ED_ParseGlobals`. (savestate.cpp:634-666) -/
def ssEdParseGlobals (eng : Engine) (sv : Server) (copies : List Str) (data : Str) :
    Except Fault Parsed :=
  parsePairs 64 (globalPair eng sv) (data.length + 1) data { v := sv.globals, copies := copies }

end TASQuake
