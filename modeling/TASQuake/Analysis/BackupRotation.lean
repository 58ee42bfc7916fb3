import TASQuake.Lib.Rotation
import TASQuake.Model.Backups

/-!
# The rotation of backups

`Move_Saves` walks down the slots and moves each file to the name that the round before has left.
That name has no file any more, so that every round is a `move` and the whole loop a `shiftUp` along
the slots; the names of the slots are different.
-/

namespace TASQuake.Analysis.BackupRotation

open Lib Files List

/-! ## The names of the slots -/

/-- A file name with an extension. -/
def fileName (stem ext : Str) : Str := stem ++ 46 :: ext

/-- The name of a slot: the script itself, or one of its backups. -/
def slotName (stem ext : Str) (k : ℕ) : Str :=
  if k = 0 then fileName stem ext else stem ++ str "-" ++ decimal k ++ str ".qtas"

theorem slotName_injective (stem ext : Str) : Function.Injective (slotName stem ext) := by
  -- a dot follows the stem in the name of the script, and a hyphen in the names of backups
  have hzero : ∀ k ≠ 0, slotName stem ext 0 ≠ slotName stem ext k := by
    intro k hk heq
    unfold slotName fileName at heq
    rw [if_pos rfl, if_neg hk, append_assoc, append_assoc] at heq
    have hhead := append_cancel_left heq
    cases hhead
  intro j k heq
  by_cases hj : j = 0
  · by_contra hne
    subst hj
    exact hzero k (fun hk => hne hk.symm) heq
  · by_cases hk : k = 0
    · subst hk
      exact absurd heq.symm (hzero j hj)
    · unfold slotName at heq
      rw [if_neg hj, if_neg hk] at heq
      have hdecimal := append_cancel_left (append_cancel_right heq)
      rw [← ofDecimal_decimal j, hdecimal, ofDecimal_decimal]

theorem withoutExtension?_fileName {stem ext : Str} (hext : 46 ∉ ext) :
    withoutExtension? (fileName stem ext) = some stem := by
  have hdrop : (fileName stem ext).rdropWhile (fun c => c != 46) = stem ++ [46] := by
    have hall : ∀ c ∈ ext.reverse, (c != 46) = true := by
      intro c hc
      simpa using ne_of_mem_of_not_mem (mem_reverse.mp hc) hext
    unfold fileName List.rdropWhile
    rw [reverse_append, reverse_cons, append_assoc, dropWhile_append_of_pos hall]
    simp
  unfold withoutExtension?
  simp [hdrop]

theorem getBackupSave_eq {stem ext : Str} (hext : 46 ∉ ext)
    (hlen : (fileName stem ext).length < 240) {k : ℕ} (hk : k < 2 ^ 31) :
    getBackupSave (fileName stem ext) k = some (some (slotName stem ext k)) := by
  have hstem : stem.length < 239 := by
    unfold fileName at hlen
    rw [length_append, length_cons] at hlen
    omega
  unfold getBackupSave slotName
  by_cases hzero : k = 0
  · subst hzero
    have hfits : sprintf256 (fileName stem ext) = some (fileName stem ext) := if_pos (by omega)
    rw [if_pos (Int.natCast_zero), if_pos rfl, hfits]
    rfl
  · have hdigits : (decimal k).length ≤ 10 := length_decimal_le (show k < 10 ^ (9 + 1) by omega)
    have hdecimal : decimalInt (k : Int) = decimal k := by
      unfold decimalInt
      rw [if_neg (by omega), Int.natAbs_natCast]
    have hfits : sprintf256 (stem ++ str "-" ++ decimal k ++ str ".qtas") =
        some (stem ++ str "-" ++ decimal k ++ str ".qtas") := by
      refine if_pos ?_
      rw [length_append, length_append, length_append]
      have hhyphen : (str "-").length = 1 := rfl
      have hending : (str ".qtas").length = 5 := rfl
      omega
    have hstemTake : stem.take 255 = stem := take_of_length_le (by omega)
    rw [if_neg (by omega), if_neg hzero, withoutExtension?_fileName hext]
    simp only [hstemTake, hdecimal, hfits, Option.map_some]

/-! ## The loop -/

section Loop

variable {C : Type} {stem ext : Str}

theorem rename_if_exists {files : Files C} {old new : Str} (hnew : files new = none) :
    (if (files old).isSome then files.rename old new else files) = move files old new := by
  cases hold : files old with
  | some content => rfl
  | none =>
    funext name
    show files name = move files old new name
    unfold move
    rw [hold]
    split
    · next heq => rw [heq, hnew]
    · split
      · next heq => rw [heq, hold]
      · rfl

theorem moveSavesLoop_eq (hext : 46 ∉ ext) (hlen : (fileName stem ext).length < 240) {n : ℕ}
    (hn : n < 2 ^ 31) {files : Files C} (hnone : files (slotName stem ext n) = none) :
    moveSavesLoop (fileName stem ext) n (slotName stem ext n) files =
      some (true, shiftUp (slotName stem ext) n files) := by
  induction n generalizing files with
  | zero => rfl
  | succ n ih =>
    have hne : slotName stem ext n ≠ slotName stem ext (n + 1) :=
      fun heq => absurd (slotName_injective stem ext heq) (by omega)
    rw [moveSavesLoop, getBackupSave_eq hext hlen (by omega), some_bind]
    simp only [rename_if_exists hnone]
    refine ih (by omega) ?_
    unfold move
    rw [if_neg hne, if_pos rfl]

theorem moveSaves_eq (hext : 46 ∉ ext) (hlen : (fileName stem ext).length < 240) {n : ℕ}
    (hn : n + 1 < 2 ^ 31) (files : Files C) :
    moveSaves ((n : Int) + 1) (fileName stem ext) files =
      some (true, shiftUp (slotName stem ext) n (files.remove (slotName stem ext n))) := by
  have hremove : (if (files (slotName stem ext n)).isSome then files.remove (slotName stem ext n)
      else files) = files.remove (slotName stem ext n) := by
    cases hfile : files (slotName stem ext n) with
    | some content => rfl
    | none =>
      funext name
      show files name = files.remove (slotName stem ext n) name
      unfold remove
      split
      · next heq => rw [heq, hfile]
      · rfl
  have hindex : (n : Int) + 1 - 1 = (n : Int) := by omega
  unfold moveSaves
  rw [if_neg (by omega), hindex, getBackupSave_eq hext hlen (by omega), some_bind]
  simp only [hremove, Int.toNat_natCast]
  exact moveSavesLoop_eq hext hlen (by omega) (if_pos rfl)

end Loop

/-- What `Move_Saves` leaves of the files: every slot but the last has moved up by one, the script
itself is gone, and so is what the last slot had. -/
structure Rotated {C : Type} (stem ext : Str) (n : Int) (files files' : Files C) : Prop where
  moved : ∀ i : ℕ, (i : Int) ≤ n - 2 →
    files' (slotName stem ext (i + 1)) = files (slotName stem ext i)
  script : files' (slotName stem ext 0) = none
  others : ∀ name, (∀ i : ℕ, (i : Int) < n → name ≠ slotName stem ext i) → files' name = files name

/-- **`Move_Saves` shifts every save by one slot and loses only the oldest,** whichever of the slots
have files. -/
theorem moveSaves_rotates {C : Type} (n : Int) (hn : 1 ≤ n) (hint : n < 2 ^ 31) (stem ext : Str)
    (hext : 46 ∉ ext) (hlen : (fileName stem ext).length < 240) (files : Files C) :
    ∃ files', moveSaves n (fileName stem ext) files = some (true, files') ∧
      Rotated stem ext n files files' := by
  obtain ⟨m, rfl⟩ : ∃ m : ℕ, n = (m : Int) + 1 := ⟨(n - 1).toNat, by omega⟩
  have hinj := slotName_injective stem ext
  have hshift := shifted_shiftUp hinj m (files.remove (slotName stem ext m))
  have hkeep : ∀ name, name ≠ slotName stem ext m →
      files.remove (slotName stem ext m) name = files name := fun name hne => if_neg hne
  refine ⟨_, moveSaves_eq hext hlen (by omega) files, fun i hi => ?_, ?_, fun name hname => ?_⟩
  · rw [hshift.moved i (by omega)]
    exact hkeep _ fun heq => absurd (hinj heq) (by omega)
  · rcases Nat.eq_zero_or_pos m with rfl | hpos
    · exact if_pos rfl
    · exact hshift.first hpos
  · rw [hshift.others name fun i hi => hname i (by omega)]
    exact hkeep name (hname m (by omega))

/-- Three backups of `a.qtas`, of which the first is missing. -/
theorem moveSaves_rotates_gap :
    ∃ files', moveSaves 3 (str "a.qtas")
        (write (write (fun _ => none) (str "a.qtas") 0) (str "a-2.qtas") 2) =
          some (true, files') ∧
      files' (str "a-1.qtas") = some 0 ∧ files' (str "a-2.qtas") = none ∧
      files' (str "a.qtas") = none := by
  obtain ⟨files', heq, hrotated⟩ := moveSaves_rotates 3 (by decide) (by decide) (str "a")
    (str "qtas") (by decide) (by decide)
    (write (write (fun _ => none) (str "a.qtas") 0) (str "a-2.qtas") 2)
  exact ⟨files', heq, (hrotated.moved 0 (by decide)).trans (by decide),
    (hrotated.moved 1 (by decide)).trans (by decide), hrotated.script⟩

/-! ## Saving again and again -/

open TASScript (cStr writeToFile)

section Saves

variable {F : Type} {env : TextEnv F} {stem ext : Str} (hext : 46 ∉ ext)
  (hlen : (fileName stem ext).length < 240) {n : ℕ} (hn : n + 1 < 2 ^ 31)

include hext hlen hn

theorem exists_saveToFile {script : TASScript F} (hname : cStr script.fileName = fileName stem ext)
    (hne : script.blocks ≠ []) {content : Str} (hwrite : writeToFile env script.blocks = some content)
    (files : Files Str) :
    ∃ files', script.saveToFile env (n + 1) true files = some files' ∧
      files' (slotName stem ext 0) = some content ∧
      ∀ i < n, files' (slotName stem ext (i + 1)) = files (slotName stem ext i) := by
  have hinj := slotName_injective stem ext
  have hshift := shifted_shiftUp hinj n (files.remove (slotName stem ext n))
  refine ⟨write (shiftUp (slotName stem ext) n (files.remove (slotName stem ext n)))
    (slotName stem ext 0) content, ?_, if_pos rfl, fun i hi => ?_⟩
  · unfold TASScript.saveToFile
    rw [if_neg (by simpa using hne), hname, moveSaves_eq hext hlen hn, some_bind, hwrite]
    rfl
  · unfold write
    rw [if_neg (hinj.ne (by omega)), hshift.moved i hi]
    exact if_neg (hinj.ne (by omega))

/-- **After any number of saves** the slots hold the latest ones, the last one first, and behind
them what was there before, as far as there are slots. -/
theorem saves_keep_latest (scripts : List (TASScript F)) (hscripts : ∀ script ∈ scripts,
      cStr script.fileName = fileName stem ext ∧ script.blocks ≠ [] ∧
        (writeToFile env script.blocks).isSome) (files : Files Str) :
    ∃ files', run (fun files script => script.saveToFile env (n + 1) true files) files scripts =
        some files' ∧
      ∀ i ≤ n, files' (slotName stem ext i) =
        match scripts.reverse[i]? with
        | some script => writeToFile env script.blocks
        | none => files (slotName stem ext (i - scripts.length)) := by
  induction scripts generalizing files with
  | nil => exact ⟨files, rfl, fun i _ => rfl⟩
  | cons script scripts ih =>
    obtain ⟨⟨hname, hne, hsome⟩, hrest⟩ := forall_mem_cons.mp hscripts
    obtain ⟨content, hwrite⟩ := Option.isSome_iff_exists.mp hsome
    obtain ⟨files₁, hsave, hfirst, hmoved⟩ := exists_saveToFile hext hlen hn hname hne hwrite files
    obtain ⟨files', hrun, hslots⟩ := ih hrest files₁
    refine ⟨files', run_cons_eq_some.mpr ⟨files₁, hsave, hrun⟩, fun i hi => ?_⟩
    rw [hslots i hi, reverse_cons]
    rcases lt_trichotomy i scripts.length with hlt | rfl | hgt
    · rw [getElem?_append_left (by simpa using hlt), getElem?_eq_getElem (by simpa using hlt)]
    · simp [hfirst, hwrite]
    · obtain ⟨j, rfl⟩ : ∃ j, i = scripts.length + 1 + j := ⟨i - scripts.length - 1, by omega⟩
      have hslot : scripts.length + 1 + j - scripts.length = j + 1 := by omega
      rw [getElem?_eq_none (by rw [length_reverse]; omega), getElem?_eq_none (by simp)]
      show files₁ _ = files _
      rw [hslot, hmoved j (by omega), length_cons, Nat.add_sub_cancel_left]

end Saves

/-- The first of two saves is the backup of the second one. -/
theorem saves_keep_latest_two :
    let env : TextEnv ℕ := ⟨fun _ => false, decimal, fun _ => 0⟩
    let script (frame : Int) : TASScript ℕ := { fileName := str "a.qtas", blocks := [{ frame }] }
    ∃ files, run (fun files script => script.saveToFile env 2 true files) (fun _ => none)
        [script 1, script 2] = some files ∧
      files (slotName (str "a") (str "qtas") 1) = writeToFile env (script 1).blocks := by
  intro env script
  have hscripts : ∀ s ∈ [script 1, script 2], cStr s.fileName = fileName (str "a") (str "qtas") ∧
      s.blocks ≠ [] ∧ (writeToFile env s.blocks).isSome := by decide +kernel
  obtain ⟨files, hrun, hslots⟩ :=
    saves_keep_latest (by decide) (by decide) (n := 1) (by decide) _ hscripts _
  exact ⟨files, hrun, hslots 1 le_rfl⟩

end TASQuake.Analysis.BackupRotation
