import TASQuake.Analysis.BlockEdits

/-!
# Placing a shot

On a script with strictly increasing frames `AddShot` adds blank blocks on the three frames of the
shot, rewrites every block by itself (`edit`), and drops blank blocks (`blockAt_addShot`).

Before it does so, it looks whether the first blocks at or after these frames carry the shot.  They
need not be on the frames; and a value that differs from itself, as a NaN does, is never found.
-/

namespace TASQuake.Analysis.ShotPlacement

open Lib TASScript FrameBlock OrderedMap List

variable {F : Type}

/-! ## What `AddShot` does to one block -/

/-- The frames on which blank blocks are dropped. -/
def pruneWindow (frame turnFrames : Int) : Int → Bool :=
  between (turnFrame frame turnFrames - clearRange) (shootOffFrame frame + clearRange)

/-- Clear the window of a shot. -/
def clear (frame turnFrames : Int) (b : FrameBlock F) : FrameBlock F :=
  b.eraseShot (viewWindow frame turnFrames) (attackWindow frame)

/-- Write the entries of a shot. -/
def write (pitch yaw : F) (frame turnFrames : Int) (b : FrameBlock F) : FrameBlock F :=
  (((b.setConvarOn (only (turnFrame frame turnFrames)) (str "tas_view_yaw") (some yaw)
    ).setConvarOn (only (turnFrame frame turnFrames)) (str "tas_view_pitch") (some pitch)
    ).setToggleOn (only (shootFrame frame)) (str "attack") (some true)
    ).setToggleOn (only (shootOffFrame frame)) (str "attack") (some false)

/-- Clear the window of a shot and write its entries. -/
def edit (pitch yaw : F) (frame turnFrames : Int) (b : FrameBlock F) : FrameBlock F :=
  write pitch yaw frame turnFrames (clear frame turnFrames b)

/-- The blocks that `AddShot` does not drop. -/
def keep (frame turnFrames : Int) (b : FrameBlock F) : Bool :=
  !(b.isBlank && pruneWindow frame turnFrames b.frame)

section Blockwise

variable {pitch yaw : F} {frame turnFrames : Int} {b : FrameBlock F}

@[simp] theorem frame_clear : (clear frame turnFrames b).frame = b.frame := by
  simp [clear]

@[simp] theorem frame_write : (write pitch yaw frame turnFrames b).frame = b.frame := by
  simp [write]

@[simp] theorem frame_edit : (edit pitch yaw frame turnFrames b).frame = b.frame := by
  simp [edit]

@[simp] theorem commands_edit : (edit pitch yaw frame turnFrames b).commands = b.commands := by
  simp [edit, write, clear]

theorem clear_blank (g : Int) :
    clear frame turnFrames ({ frame := g } : FrameBlock F) = { frame := g } := by
  unfold clear eraseShot setConvarOn setToggleOn
  dsimp only
  split <;> split <;> rfl

theorem viewWindow_turnFrame : viewWindow frame turnFrames (turnFrame frame turnFrames) = true := by
  have hrange : clearRange = 2 := rfl
  simp only [viewWindow, between_iff]
  omega

theorem attackWindow_of_shot {g : Int} (hshoot : shootFrame frame ≤ shootOffFrame frame)
    (hg : g = shootFrame frame ∨ g = shootOffFrame frame) : attackWindow frame g = true := by
  have hrange : clearRange = 2 := rfl
  simp only [attackWindow, between_iff]
  omega

variable {name : Str}

theorem convars_edit_of_not (h : ¬ (viewWindow frame turnFrames b.frame = true ∧ IsView name)) :
    (edit pitch yaw frame turnFrames b).convars.find? name = b.convars.find? name := by
  have hturn : b.frame = turnFrame frame turnFrames → viewWindow frame turnFrames b.frame = true :=
    fun hb => hb ▸ viewWindow_turnFrame
  unfold IsView at h
  simp only [edit, write, clear, eraseShot, convars_setToggleOn, find?_setConvarOn,
    frame_setConvarOn, frame_setToggleOn, only_iff]
  rw [if_neg fun hp => h ⟨hturn hp.1, .inr hp.2⟩, if_neg fun hp => h ⟨hturn hp.1, .inl hp.2⟩,
    if_neg fun hp => h ⟨hp.1, .inr hp.2⟩, if_neg fun hp => h ⟨hp.1, .inl hp.2⟩]

theorem convars_edit_of_view (hframe : viewWindow frame turnFrames b.frame = true)
    (hname : IsView name) :
    (edit pitch yaw frame turnFrames b).convars.find? name =
      if b.frame = turnFrame frame turnFrames then
        some (if name = str "tas_view_pitch" then pitch else yaw)
      else none := by
  simp only [edit, write, clear, eraseShot, convars_setToggleOn, find?_setConvarOn,
    frame_setConvarOn, frame_setToggleOn, only_iff, hframe, true_and]
  have hne : str "tas_view_yaw" ≠ str "tas_view_pitch" := by decide
  by_cases hturn : b.frame = turnFrame frame turnFrames
  · rcases hname with rfl | rfl
    · simp [hturn, hne]
    · simp [hturn]
  · rcases hname with rfl | rfl
    · simp [hturn]
    · simp [hturn]

theorem toggles_edit_of_not (hshoot : shootFrame frame ≤ shootOffFrame frame)
    (h : ¬ (attackWindow frame b.frame = true ∧ name = str "attack")) :
    (edit pitch yaw frame turnFrames b).toggles.find? name = b.toggles.find? name := by
  have hwindow := attackWindow_of_shot hshoot (g := b.frame)
  simp only [edit, write, clear, eraseShot, toggles_setConvarOn, find?_setToggleOn,
    frame_setConvarOn, frame_setToggleOn, only_iff]
  rw [if_neg fun hp => h ⟨hwindow (.inr hp.1), hp.2⟩, if_neg fun hp => h ⟨hwindow (.inl hp.1), hp.2⟩,
    if_neg h]

theorem toggles_edit_of_attack (hframe : attackWindow frame b.frame = true) :
    (edit pitch yaw frame turnFrames b).toggles.find? (str "attack") =
      if b.frame = shootOffFrame frame then some false
      else if b.frame = shootFrame frame then some true else none := by
  simp [edit, write, clear, eraseShot, find?_setToggleOn, hframe]

theorem convars_edit_turn (hframe : b.frame = turnFrame frame turnFrames) (hname : IsView name) :
    (edit pitch yaw frame turnFrames b).convars.find? name =
      some (if name = str "tas_view_pitch" then pitch else yaw) := by
  rw [convars_edit_of_view (hframe ▸ viewWindow_turnFrame) hname, if_pos hframe]

variable (hshoot : shootFrame frame < shootOffFrame frame)
include hshoot

theorem toggles_edit_shoot (hframe : b.frame = shootFrame frame) :
    (edit pitch yaw frame turnFrames b).toggles.find? (str "attack") = some true := by
  rw [toggles_edit_of_attack (attackWindow_of_shot hshoot.le (.inl hframe)), if_neg (by omega),
    if_pos hframe]

theorem toggles_edit_off (hframe : b.frame = shootOffFrame frame) :
    (edit pitch yaw frame turnFrames b).toggles.find? (str "attack") = some false := by
  rw [toggles_edit_of_attack (attackWindow_of_shot hshoot.le (.inr hframe)), if_pos hframe]

end Blockwise

/-! ## What `AddShot` does to the script -/

section Script

variable {s : TASScript F} (hs : s.blocks.Pairwise fun a b => a.frame < b.frame) {pitch yaw : F}
  {frame turnFrames : Int}

/-- The blank block that `AddShot` adds on a frame of the shot. -/
def addedOn (frame turnFrames g : Int) : Option (FrameBlock F) :=
  if g = turnFrame frame turnFrames ∨ g = shootFrame frame ∨ g = shootOffFrame frame then
    some { frame := g }
  else none

include hs

theorem blockAt_writeShot (pitch yaw : F) (hturn : turnFrame frame turnFrames ≤ shootFrame frame) :
    ((s.writeShot pitch yaw frame turnFrames).blocks.Pairwise fun a b => a.frame < b.frame) ∧
      ∀ g, blockAt (s.writeShot pitch yaw frame turnFrames).blocks g =
        ((blockAt s.blocks g).or (addedOn frame turnFrames g)).map
          (write pitch yaw frame turnFrames) := by
  obtain ⟨i₁, i₂, i₃, hon₁, hon₂, hon₃, heq⟩ := s.writeShot_eq pitch yaw hturn
  let s₃ := s.withShotBlocks frame turnFrames
  obtain ⟨hs₁, hat₁⟩ := blockAt_getBlockForInsertion hs (turnFrame frame turnFrames)
  obtain ⟨hs₂, hat₂⟩ := blockAt_getBlockForInsertion hs₁ (shootFrame frame)
  obtain ⟨hs₃, hat₃⟩ := blockAt_getBlockForInsertion hs₂ (shootOffFrame frame)
  -- each write is an edit of the blocks on its frame
  let t₁ := s₃.setConvarAt i₁ (str "tas_view_yaw") yaw
  let t₂ := t₁.setConvarAt i₁ (str "tas_view_pitch") pitch
  let t₃ := t₂.setToggleAt i₂ (str "attack") true
  have hb₁ : t₁.blocks = _ := blocks_setConvarAt (str "tas_view_yaw") hs₃ hon₁ yaw
  have hp₁ : t₁.blocks.Pairwise fun a b => a.frame < b.frame := by
    rw [hb₁]
    exact pairwise_map_of_frame hs₃ (by simp)
  have hb₂ : t₂.blocks = _ := blocks_setConvarAt (str "tas_view_pitch") hp₁
    (by rw [frame_getElem?_setConvarAt]; exact hon₁) pitch
  have hp₂ : t₂.blocks.Pairwise fun a b => a.frame < b.frame := by
    rw [hb₂]
    exact pairwise_map_of_frame hp₁ (by simp)
  have hb₃ : t₃.blocks = _ := blocks_setToggleAt (str "attack") hp₂
    (by rw [frame_getElem?_setConvarAt, frame_getElem?_setConvarAt]; exact hon₂) true
  have hp₃ : t₃.blocks.Pairwise fun a b => a.frame < b.frame := by
    rw [hb₃]
    exact pairwise_map_of_frame hp₂ (by simp)
  have hb₄ : (t₃.setToggleAt i₃ (str "attack") false).blocks = _ :=
    blocks_setToggleAt (str "attack") hp₃ (by
      rw [frame_getElem?_setToggleAt, frame_getElem?_setConvarAt, frame_getElem?_setConvarAt]
      exact hon₃) false
  have hwritten : (s.writeShot pitch yaw frame turnFrames).blocks =
      s₃.blocks.map (write pitch yaw frame turnFrames) := by
    rw [heq, hb₄, hb₃, hb₂, hb₁, map_map, map_map, map_map]
    rfl
  rw [hwritten]
  refine ⟨pairwise_map_of_frame hs₃ (by simp), fun g => ?_⟩
  have hmap : blockAt (s₃.blocks.map (write pitch yaw frame turnFrames)) g =
      (blockAt s₃.blocks g).map (write pitch yaw frame turnFrames) := entryAt_map (by simp) g
  have hadded : blockAt s₃.blocks g =
      (blockAt s.blocks g).or (addedOn frame turnFrames g) := by
    show blockAt (s.withShotBlocks frame turnFrames).blocks g = _
    unfold withShotBlocks
    rw [hat₃, hat₂, hat₁, Option.or_assoc, Option.or_assoc]
    congr 1
    unfold addedOn
    by_cases h₁ : g = turnFrame frame turnFrames
    · simp [h₁]
    · by_cases h₂ : g = shootFrame frame
      · have hframe : g = turnFrame frame turnFrames ∨ g = shootFrame frame ∨
            g = shootOffFrame frame := .inr (.inl h₂)
        rw [if_neg h₁, if_pos h₂, if_pos hframe]
        rfl
      · simp [h₁, h₂]
  rw [hmap, hadded]

/-- **What `AddShot` does when it finds something to change**, frame by frame. -/
theorem blockAt_addShot (hturn : turnFrame frame turnFrames ≤ shootFrame frame) [BEq F]
    (hchange : s.shotChangeDetected pitch yaw frame turnFrames = true) :
    (s.addShot pitch yaw frame turnFrames).2 = true ∧
      ((s.addShot pitch yaw frame turnFrames).1.blocks.Pairwise fun a b => a.frame < b.frame) ∧
      ∀ g, blockAt (s.addShot pitch yaw frame turnFrames).1.blocks g =
        (((blockAt s.blocks g).or (addedOn frame turnFrames g)).map
          (edit pitch yaw frame turnFrames)).filter (keep frame turnFrames) := by
  have hcleared : (s.clearShotWindow frame turnFrames).blocks =
      s.blocks.map (clear frame turnFrames) := s.blocks_clearShotWindow frame turnFrames
  have hclear : (s.clearShotWindow frame turnFrames).blocks.Pairwise
      fun a b => a.frame < b.frame := by
    rw [hcleared]
    exact pairwise_map_of_frame hs (by simp)
  obtain ⟨hp, hat⟩ := blockAt_writeShot hclear pitch yaw hturn
  have heq : s.addShot pitch yaw frame turnFrames =
      (((s.clearShotWindow frame turnFrames).writeShot pitch yaw frame turnFrames).prune
        (turnFrame frame turnFrames - clearRange) (shootOffFrame frame + clearRange), true) := by
    unfold addShot
    rw [if_pos hchange]
  rw [heq]
  refine ⟨rfl, hp.filter _, fun g => ?_⟩
  have hfilter : blockAt (((s.clearShotWindow frame turnFrames).writeShot pitch yaw frame
      turnFrames).prune (turnFrame frame turnFrames - clearRange)
      (shootOffFrame frame + clearRange)).blocks g = _ :=
    entryAt_filter (nodup_of_strict hp) (keep frame turnFrames) g
  have hmap : blockAt (s.blocks.map (clear frame turnFrames)) g =
      (blockAt s.blocks g).map (clear frame turnFrames) := entryAt_map (by simp) g
  have hat' := hat g
  rw [hcleared, hmap] at hat'
  rw [hfilter]
  congr 1
  refine hat'.trans ?_
  cases blockAt s.blocks g with
  | some b => rfl
  | none =>
    unfold addedOn
    split
    · simp [edit, clear_blank]
    · rfl

end Script

/-! ## What a shot should leave -/

/-- The three blocks of a shot are on their frames. -/
structure InPlace [BEq F] (blocks : List (FrameBlock F)) (pitch yaw : F) (frame turnFrames : Int) :
    Prop where
  turned : ∃ b ∈ blocks, b.frame = turnFrame frame turnFrames ∧
    (∃ v, b.convars.find? (str "tas_view_pitch") = some v ∧ Same v pitch) ∧
    ∃ v, b.convars.find? (str "tas_view_yaw") = some v ∧ Same v yaw
  pressed : ∃ b ∈ blocks, b.frame = shootFrame frame ∧ b.toggles.find? (str "attack") = some true
  released : ∃ b ∈ blocks, b.frame = shootOffFrame frame ∧
    b.toggles.find? (str "attack") = some false

/-- The entries outside the windows of a shot are the same. -/
structure OutsideKept (blocks blocks' : List (FrameBlock F)) (frame turnFrames : Int) : Prop where
  convars : ∀ g name, ¬ (viewWindow frame turnFrames g = true ∧ IsView name) →
    convarAt blocks' g name = convarAt blocks g name
  toggles : ∀ g name, ¬ (attackWindow frame g = true ∧ name = str "attack") →
    toggleAt blocks' g name = toggleAt blocks g name
  commands : ∀ g, commandsAt blocks' g = commandsAt blocks g

/-- The script has the shot, with these very values, and nothing else that `AddShot` would clear or
drop. -/
structure AlreadyThere (blocks : List (FrameBlock F)) (pitch yaw : F) (frame turnFrames : Int) :
    Prop where
  turned : ∃ b ∈ blocks, b.frame = turnFrame frame turnFrames ∧
    b.convars.find? (str "tas_view_pitch") = some pitch ∧
    b.convars.find? (str "tas_view_yaw") = some yaw
  pressed : ∃ b ∈ blocks, b.frame = shootFrame frame ∧ b.toggles.find? (str "attack") = some true
  released : ∃ b ∈ blocks, b.frame = shootOffFrame frame ∧
    b.toggles.find? (str "attack") = some false
  noView : ∀ b ∈ blocks, viewWindow frame turnFrames b.frame = true →
    b.frame ≠ turnFrame frame turnFrames → ∀ name, IsView name → b.convars.find? name = none
  noAttack : ∀ b ∈ blocks, attackWindow frame b.frame = true → b.frame ≠ shootFrame frame →
    b.frame ≠ shootOffFrame frame → b.toggles.find? (str "attack") = none
  noBlank : ∀ b ∈ blocks, pruneWindow frame turnFrames b.frame = true → b.isBlank = false

/-- The first block at or after a frame. -/
structure FirstFrom (blocks : List (FrameBlock F)) (f : Int) (b : FrameBlock F) : Prop where
  mem : b ∈ blocks
  le : f ≤ b.frame
  first : ∀ c ∈ blocks, f ≤ c.frame → b.frame ≤ c.frame

/-- The first blocks at or after the frames of a shot carry its values. -/
structure Found [BEq F] (blocks : List (FrameBlock F)) (pitch yaw : F) (frame turnFrames : Int)
    (turn shoot off : FrameBlock F) : Prop where
  turn_first : FirstFrom blocks (turnFrame frame turnFrames) turn
  shoot_first : FirstFrom blocks (shootFrame frame) shoot
  off_first : FirstFrom blocks (shootOffFrame frame) off
  pitched : turn.hasCvarValue (str "tas_view_pitch") pitch = true
  yawed : turn.hasCvarValue (str "tas_view_yaw") yaw = true
  pressed : shoot.hasToggleValue (str "attack") true = true
  released : off.hasToggleValue (str "attack") false = true

/-- They do, but they are not all on these frames. -/
def FoundElsewhere [BEq F] (blocks : List (FrameBlock F)) (pitch yaw : F)
    (frame turnFrames : Int) : Prop :=
  ∃ turn shoot off, Found blocks pitch yaw frame turnFrames turn shoot off ∧
    ¬ (turn.frame = turnFrame frame turnFrames ∧ shoot.frame = shootFrame frame ∧
      off.frame = shootOffFrame frame)

/-! ## The test of `AddShot` -/

section Test

variable {s : TASScript F} (hs : s.blocks.Pairwise fun a b => a.frame < b.frame) {pitch yaw : F}
  {frame turnFrames : Int}

include hs

variable {b : FrameBlock F} {f : Int}

theorem getFrameblock_eq_some_iff : s.getFrameblock f = some b ↔ FirstFrom s.blocks f b := by
  rw [getFrameblock_eq_find?, List.find?_eq_some_iff_append]
  constructor
  · rintro ⟨hle, before, after, heq, hbefore⟩
    refine ⟨by simp [heq], of_decide_eq_true hle, fun c hc hfc => ?_⟩
    rw [heq] at hs hc
    rcases mem_append.mp hc with hc | hc
    · have hnot := hbefore c hc
      simp only [Bool.not_eq_true', decide_eq_false_iff_not] at hnot
      exact absurd hfc hnot
    · rcases mem_cons.mp hc with rfl | hc
      · exact le_refl _
      · exact ((pairwise_cons.mp (pairwise_append.mp hs).2.1).1 c hc).le
  · rintro ⟨hmem, hle, hfirst⟩
    obtain ⟨before, after, heq⟩ := append_of_mem hmem
    refine ⟨decide_eq_true hle, before, after, heq, fun c hc => ?_⟩
    have hlt : c.frame < b.frame := by
      rw [heq] at hs
      exact (pairwise_append.mp hs).2.2 c hc b mem_cons_self
    have hnot : ¬ f ≤ c.frame := fun hfc =>
      absurd (hfirst c (by simp [heq, hc]) hfc) (not_le.mpr hlt)
    simpa using hnot

theorem any_getFrameblock_iff {p : FrameBlock F → Bool} :
    (s.getFrameblock f).any p = true ↔ ∃ b, FirstFrom s.blocks f b ∧ p b = true := by
  cases hb : s.getFrameblock f with
  | none =>
    refine ⟨nofun, ?_⟩
    rintro ⟨b, hfirst, -⟩
    rw [(getFrameblock_eq_some_iff hs).mpr hfirst] at hb
    cases hb
  | some b =>
    constructor
    · intro hp
      exact ⟨b, (getFrameblock_eq_some_iff hs).mp hb, hp⟩
    · rintro ⟨c, hfirst, hp⟩
      rw [(getFrameblock_eq_some_iff hs).mpr hfirst] at hb
      cases hb
      exact hp

theorem shotChangeDetected_eq_false_iff [BEq F] :
    s.shotChangeDetected pitch yaw frame turnFrames = false ↔
      ∃ turn shoot off, Found s.blocks pitch yaw frame turnFrames turn shoot off := by
  unfold shotChangeDetected
  rw [Bool.or_eq_false_iff, Bool.or_eq_false_iff, Bool.not_eq_false', Bool.not_eq_false',
    Bool.not_eq_false', any_getFrameblock_iff hs, any_getFrameblock_iff hs,
    any_getFrameblock_iff hs]
  constructor
  · rintro ⟨⟨⟨turn, hturn, hview⟩, shoot, hshoot, hpressed⟩, off, hoff, hreleased⟩
    rw [Bool.and_eq_true] at hview
    exact ⟨turn, shoot, off, hturn, hshoot, hoff, hview.1, hview.2, hpressed, hreleased⟩
  · rintro ⟨turn, shoot, off, h⟩
    exact ⟨⟨⟨turn, h.turn_first, by rw [h.pitched, h.yawed]; rfl⟩, shoot, h.shoot_first, h.pressed⟩,
      off, h.off_first, h.released⟩

omit hs in
theorem FirstFrom.of_frame_eq {blocks : List (FrameBlock F)} (hb : b ∈ blocks) (hf : b.frame = f) :
    FirstFrom blocks f b :=
  ⟨hb, hf.ge, fun _ _ hc => hf.trans_le hc⟩

theorem FirstFrom.eq_of_frame_eq {c : FrameBlock F} (h : FirstFrom s.blocks f b) (hc : c ∈ s.blocks)
    (hf : c.frame = f) : b = c := by
  have hfirst := FirstFrom.of_frame_eq hc hf
  have hb := (getFrameblock_eq_some_iff hs).mpr h
  rw [(getFrameblock_eq_some_iff hs).mpr hfirst] at hb
  exact (Option.some.inj hb).symm

end Test

theorem hasCvarValue_iff [BEq F] {b : FrameBlock F} {name : Str} {v : F} :
    b.hasCvarValue name v = true ↔ ∃ w, b.convars.find? name = some w ∧ (w == v) = true := by
  unfold hasCvarValue
  cases b.convars.find? name with
  | none => simp
  | some w => simp

theorem hasToggleValue_iff {b : FrameBlock F} {name : Str} {v : Bool} :
    b.hasToggleValue name v = true ↔ b.toggles.find? name = some v := by
  unfold hasToggleValue
  cases b.toggles.find? name with
  | none => simp
  | some w => simp

/-! ## A change is detected -/

section Detected

variable [BEq F] {s : TASScript F} (hs : s.blocks.Pairwise fun a b => a.frame < b.frame)
  {pitch yaw : F} {frame turnFrames : Int}
  (hturn : turnFrame frame turnFrames ≤ shootFrame frame)
  (hshoot : shootFrame frame < shootOffFrame frame)
  (hchange : s.shotChangeDetected pitch yaw frame turnFrames = true)

include hs hturn hshoot hchange

omit hshoot in
theorem exists_mem_addShot {g : Int} {added : FrameBlock F}
    (hadded : addedOn frame turnFrames g = some added)
    (hkeep : ∀ b : FrameBlock F, b.frame = g →
      keep frame turnFrames (edit pitch yaw frame turnFrames b) = true) :
    ∃ b : FrameBlock F, b.frame = g ∧
      edit pitch yaw frame turnFrames b ∈ (s.addShot pitch yaw frame turnFrames).1.blocks := by
  obtain ⟨-, hp, hat⟩ := blockAt_addShot hs hturn hchange
  have hframe : added.frame = g := by
    unfold addedOn at hadded
    split at hadded
    · exact (Option.some.inj hadded) ▸ rfl
    · cases hadded
  obtain ⟨b, hb, hbg⟩ : ∃ b, (blockAt s.blocks g).or (addedOn frame turnFrames g) = some b ∧
      b.frame = g := by
    cases hat : blockAt s.blocks g with
    | none => exact ⟨added, by rw [hadded]; rfl, hframe⟩
    | some b => exact ⟨b, rfl, key_of_entryAt hat⟩
  refine ⟨b, hbg, mem_of_entryAt (k := g) ((hat g).trans ?_)⟩
  rw [hb]
  simp [Option.filter, hkeep b hbg]

theorem inPlace_addShot :
    InPlace (s.addShot pitch yaw frame turnFrames).1.blocks pitch yaw frame turnFrames := by
  have hrange : clearRange = 2 := rfl
  have hkeep : ∀ {b : FrameBlock F}, ¬ b.isBlank = true → keep frame turnFrames b = true := by
    intro b hblank
    simp [keep, hblank]
  have hconvar : ∀ {b : FrameBlock F} {name : Str} {v : F}, b.convars.find? name = some v →
      keep frame turnFrames b = true := fun hv =>
    hkeep fun hblank => nomatch hv.symm.trans (isBlank_convars hblank _)
  have htoggle : ∀ {b : FrameBlock F} {name : Str} {v : Bool}, b.toggles.find? name = some v →
      keep frame turnFrames b = true := fun hv =>
    hkeep fun hblank => nomatch hv.symm.trans (isBlank_toggles hblank _)
  have hne : str "tas_view_yaw" ≠ str "tas_view_pitch" := by decide
  constructor
  · obtain ⟨b, hb, hmem⟩ := exists_mem_addShot hs hturn hchange (if_pos (.inl rfl))
      fun b hb => hconvar (convars_edit_turn hb (.inl rfl))
    refine ⟨_, hmem, by simpa using hb, ⟨pitch, ?_, .inl rfl⟩, yaw, ?_, .inl rfl⟩
    · rw [convars_edit_turn hb (.inr rfl), if_pos rfl]
    · rw [convars_edit_turn hb (.inl rfl), if_neg hne]
  · obtain ⟨b, hb, hmem⟩ := exists_mem_addShot hs hturn hchange (if_pos (.inr (.inl rfl)))
      fun b hb => htoggle (toggles_edit_shoot hshoot hb)
    exact ⟨_, hmem, by simpa using hb, toggles_edit_shoot hshoot hb⟩
  · obtain ⟨b, hb, hmem⟩ := exists_mem_addShot hs hturn hchange (if_pos (.inr (.inr rfl)))
      fun b hb => htoggle (toggles_edit_off hshoot hb)
    exact ⟨_, hmem, by simpa using hb, toggles_edit_off hshoot hb⟩

omit [BEq F] hs hturn hshoot hchange in
theorem bind_filter_keep {ν : Type} {value : FrameBlock F → Option ν}
    (hblank : ∀ b : FrameBlock F, b.isBlank = true → value b = none) (x : Option (FrameBlock F)) :
    (x.filter (keep frame turnFrames)).bind value = x.bind value := by
  cases x with
  | none => rfl
  | some b =>
    show (if keep frame turnFrames b = true then some b else none).bind value = value b
    split
    · rfl
    · next hdrop =>
      simp only [keep, Bool.not_eq_true', Bool.not_eq_false, Bool.and_eq_true] at hdrop
      exact (hblank b hdrop.1).symm

omit hshoot in
theorem bind_blockAt_addShot {ν : Type} {value : FrameBlock F → Option ν}
    (hblank : ∀ b : FrameBlock F, b.isBlank = true → value b = none) {g : Int}
    (hedit : ∀ b : FrameBlock F, b.frame = g →
      value (edit pitch yaw frame turnFrames b) = value b) :
    (blockAt (s.addShot pitch yaw frame turnFrames).1.blocks g).bind value =
      (blockAt s.blocks g).bind value := by
  obtain ⟨-, -, hat⟩ := blockAt_addShot hs hturn hchange
  rw [hat, bind_filter_keep hblank]
  cases hb : blockAt s.blocks g with
  | some b => exact hedit b (key_of_entryAt hb)
  | none =>
    unfold addedOn
    split
    · exact (hedit { frame := g } rfl).trans (hblank _ rfl)
    · rfl

theorem outsideKept_addShot :
    OutsideKept s.blocks (s.addShot pitch yaw frame turnFrames).1.blocks frame turnFrames := by
  constructor
  · intro g name hout
    refine bind_blockAt_addShot hs hturn hchange (fun b hb => isBlank_convars hb name) fun b hb => ?_
    exact convars_edit_of_not (by rwa [hb])
  · intro g name hout
    refine bind_blockAt_addShot hs hturn hchange (fun b hb => isBlank_toggles hb name) fun b hb => ?_
    exact toggles_edit_of_not hshoot.le (by rwa [hb])
  · intro g
    obtain ⟨-, hp, -⟩ := blockAt_addShot hs hturn hchange
    have hcommands : (blockAt (s.addShot pitch yaw frame turnFrames).1.blocks g).bind
        (fun b => if b.commands = [] then none else some b.commands) =
        (blockAt s.blocks g).bind fun b => if b.commands = [] then none else some b.commands := by
      refine bind_blockAt_addShot hs hturn hchange ?_ fun b _ => by simp
      intro b hb
      rw [if_pos (b.isBlank_iff.mp hb).2.1]
    have hgetD : ∀ x : Option (FrameBlock F), (x.map commands).getD [] =
        (x.bind fun b => if b.commands = [] then none else some b.commands).getD [] := by
      intro x
      cases x with
      | none => rfl
      | some b =>
        by_cases hb : b.commands = []
        · simp [hb]
        · simp [hb]
    rw [commandsAt_eq hp, commandsAt_eq hs, hgetD, hgetD, hcommands]

/-! ### Whether anything changed -/

omit [BEq F] hs hturn hshoot hchange in
theorem isBlank_of_sameContents {a b : FrameBlock F} (h : SameContents a b)
    (hb : b.isBlank = true) : a.isBlank = true := by
  obtain ⟨hconvars, hcommands, htoggles⟩ := b.isBlank_iff.mp hb
  refine a.isBlank_iff.mpr ⟨?_, h.commands.trans hcommands, ?_⟩
  · rw [eq_empty_iff]
    intro name
    rw [h.convars, hconvars]
    rfl
  · rw [eq_empty_iff]
    intro name
    rw [h.toggles, htoggles]
    rfl

omit [BEq F] hturn hshoot hchange in
theorem AlreadyThere.sameContents_edit (h : AlreadyThere s.blocks pitch yaw frame turnFrames)
    (hle : shootFrame frame ≤ shootOffFrame frame) {b : FrameBlock F} (hb : b ∈ s.blocks) :
    SameContents b (edit pitch yaw frame turnFrames b) := by
  -- the block on a frame of the shot is the one that has the entry
  have hunique : ∀ {c : FrameBlock F}, c ∈ s.blocks → c.frame = b.frame → c = b := by
    intro c hc hcb
    have hat := (blockAt_eq_some_iff hs).mpr ⟨hc, hcb⟩
    rw [(blockAt_eq_some_iff hs).mpr ⟨hb, rfl⟩] at hat
    exact (Option.some.inj hat).symm
  refine ⟨⟨?_, ?_, by simp⟩, by simp⟩
  · intro name
    by_cases hview : viewWindow frame turnFrames b.frame = true ∧ IsView name
    · rw [convars_edit_of_view hview.1 hview.2]
      by_cases hturn : b.frame = turnFrame frame turnFrames
      · obtain ⟨c, hc, hcf, hpitch, hyaw⟩ := h.turned
        obtain rfl := hunique hc (hcf.trans hturn.symm)
        rw [if_pos hturn]
        rcases hview.2 with rfl | rfl
        · rw [hyaw, if_neg (by decide)]
        · rw [hpitch, if_pos rfl]
      · rw [if_neg hturn]
        exact h.noView b hb hview.1 hturn name hview.2
    · exact (convars_edit_of_not hview).symm
  · intro name
    by_cases hattack : attackWindow frame b.frame = true ∧ name = str "attack"
    · obtain ⟨hwindow, rfl⟩ := hattack
      rw [toggles_edit_of_attack hwindow]
      by_cases hoff : b.frame = shootOffFrame frame
      · obtain ⟨c, hc, hcf, hreleased⟩ := h.released
        obtain rfl := hunique hc (hcf.trans hoff.symm)
        rw [if_pos hoff, hreleased]
      · by_cases hshoot : b.frame = shootFrame frame
        · obtain ⟨c, hc, hcf, hpressed⟩ := h.pressed
          obtain rfl := hunique hc (hcf.trans hshoot.symm)
          rw [if_neg hoff, if_pos hshoot, hpressed]
        · rw [if_neg hoff, if_neg hshoot]
          exact h.noAttack b hb hwindow hshoot hoff
    · exact (toggles_edit_of_not hle hattack).symm

omit hshoot in
theorem sameContents_of_unchanged
    (hsame : List.Forall₂ SameContents s.blocks (s.addShot pitch yaw frame turnFrames).1.blocks)
    {b : FrameBlock F} (hb : b ∈ s.blocks) :
    SameContents b (edit pitch yaw frame turnFrames b) ∧
      keep frame turnFrames (edit pitch yaw frame turnFrames b) = true := by
  obtain ⟨-, hp, hat⟩ := blockAt_addShot hs hturn hchange
  have hrel := (forall₂_iff_entryAt (fun _ _ h => h.frame) hs hp).mp hsame b.frame
  have hblock : entryAt FrameBlock.frame b.frame s.blocks = some b :=
    (blockAt_eq_some_iff hs).mpr ⟨hb, rfl⟩
  have hat' : entryAt FrameBlock.frame b.frame (s.addShot pitch yaw frame turnFrames).1.blocks =
      (some (edit pitch yaw frame turnFrames b)).filter (keep frame turnFrames) := by
    refine (hat b.frame).trans ?_
    unfold blockAt
    rw [hblock]
    rfl
  rw [hblock, hat'] at hrel
  by_cases hkeep : keep frame turnFrames (edit pitch yaw frame turnFrames b) = true
  · simp only [Option.filter, hkeep, if_true] at hrel
    cases hrel with
    | some h => exact ⟨h, hkeep⟩
  · simp only [Option.filter, hkeep] at hrel
    cases hrel

theorem unchanged_iff_alreadyThere :
    List.Forall₂ SameContents s.blocks (s.addShot pitch yaw frame turnFrames).1.blocks ↔
      AlreadyThere s.blocks pitch yaw frame turnFrames := by
  have hrange : clearRange = 2 := rfl
  obtain ⟨-, hp, hat⟩ := blockAt_addShot hs hturn hchange
  constructor
  · intro hsame
    have hblocks := fun {b : FrameBlock F} (hb : b ∈ s.blocks) =>
      sameContents_of_unchanged hs hturn hchange hsame hb
    have hplace := inPlace_addShot hs hturn hshoot hchange
    have hrel := (forall₂_iff_entryAt (fun _ _ h => h.frame) hs hp).mp hsame
    -- a frame with a block after the edit had one before
    have hhad : ∀ {c : FrameBlock F}, c ∈ (s.addShot pitch yaw frame turnFrames).1.blocks →
        ∃ b ∈ s.blocks, b.frame = c.frame := by
      intro c hc
      have hsome := isSome_eq_of_rel (hrel c.frame)
      rw [entryAt_of_mem (nodup_of_strict hp) hc] at hsome
      obtain ⟨b, hb⟩ := Option.isSome_iff_exists.mp hsome
      exact ⟨b, mem_of_entryAt hb, key_of_entryAt hb⟩
    refine ⟨?_, ?_, ?_, ?_, ?_, ?_⟩
    · obtain ⟨c, hc, hcf, -⟩ := hplace.turned
      obtain ⟨b, hb, hbf⟩ := hhad hc
      have hframe := hbf.trans hcf
      refine ⟨b, hb, hframe, ?_, ?_⟩
      · rw [(hblocks hb).1.convars, convars_edit_turn hframe (.inr rfl), if_pos rfl]
      · rw [(hblocks hb).1.convars, convars_edit_turn hframe (.inl rfl), if_neg (by decide)]
    · obtain ⟨c, hc, hcf, -⟩ := hplace.pressed
      obtain ⟨b, hb, hbf⟩ := hhad hc
      have hframe := hbf.trans hcf
      exact ⟨b, hb, hframe,
        ((hblocks hb).1.toggles _).trans (toggles_edit_shoot hshoot hframe)⟩
    · obtain ⟨c, hc, hcf, -⟩ := hplace.released
      obtain ⟨b, hb, hbf⟩ := hhad hc
      have hframe := hbf.trans hcf
      exact ⟨b, hb, hframe,
        ((hblocks hb).1.toggles _).trans (toggles_edit_off hshoot hframe)⟩
    · intro b hb hwindow hne name hname
      rw [(hblocks hb).1.convars, convars_edit_of_view hwindow hname, if_neg hne]
    · intro b hb hwindow hne hne'
      rw [(hblocks hb).1.toggles, toggles_edit_of_attack hwindow, if_neg hne', if_neg hne]
    · intro b hb hwindow
      by_contra hblank
      have hsym : SameContents (edit pitch yaw frame turnFrames b) b :=
        ⟨⟨fun n => ((hblocks hb).1.convars n).symm, fun n => ((hblocks hb).1.toggles n).symm,
          (hblocks hb).1.commands.symm⟩, (hblocks hb).1.frame.symm⟩
      have hedit := isBlank_of_sameContents hsym (Bool.not_eq_false _ ▸ hblank)
      have hkeep := (hblocks hb).2
      simp [keep, hedit, hwindow] at hkeep
  · intro h
    rw [forall₂_iff_entryAt (fun _ _ h => h.frame) hs hp]
    intro g
    have hat' : entryAt FrameBlock.frame g (s.addShot pitch yaw frame turnFrames).1.blocks = _ :=
      hat g
    rw [hat']
    cases hb : blockAt s.blocks g with
    | none =>
      have hnone : addedOn frame turnFrames g = (none : Option (FrameBlock F)) := by
        apply if_neg
        have hno := entryAt_eq_none_iff.mp hb
        obtain ⟨b₁, hb₁, hf₁, -⟩ := h.turned
        obtain ⟨b₂, hb₂, hf₂, -⟩ := h.pressed
        obtain ⟨b₃, hb₃, hf₃, -⟩ := h.released
        rintro (rfl | rfl | rfl)
        · exact hno b₁ hb₁ hf₁
        · exact hno b₂ hb₂ hf₂
        · exact hno b₃ hb₃ hf₃
      have hb' : entryAt FrameBlock.frame g s.blocks = none := hb
      rw [hb', hnone]
      exact .none
    | some b =>
      obtain ⟨hmem, hg⟩ := (blockAt_eq_some_iff hs).mp hb
      have hsame := h.sameContents_edit hs hshoot.le hmem
      have hkeep : keep frame turnFrames (edit pitch yaw frame turnFrames b) = true := by
        by_contra hdrop
        simp only [keep, Bool.not_eq_true', Bool.not_eq_false, Bool.and_eq_true, frame_edit] at hdrop
        have hblank := isBlank_of_sameContents hsame hdrop.1
        rw [h.noBlank b hmem hdrop.2] at hblank
        cases hblank
      have hb' : entryAt FrameBlock.frame g s.blocks = some b := hb
      rw [hb']
      simp only [Option.some_or, Option.map_some, Option.filter, hkeep, if_true]
      exact .some hsame

end Detected

/-! ## The result -/

/-- **When `AddShot` leaves the shot in place and reports honestly.**  It does so exactly if it did
not take blocks on other frames for those of the shot, and the shot was not there already with a
value that differs from itself. -/
theorem add_shot_in_place_iff [BEq F] (s : TASScript F)
    (hs : s.blocks.Pairwise fun a b => a.frame < b.frame) (pitch yaw : F) (frame turnFrames : Int)
    (hframes : 1 ≤ turnFrames) (hshoot : shootFrame frame < shootOffFrame frame) :
    (InPlace (s.addShot pitch yaw frame turnFrames).1.blocks pitch yaw frame turnFrames ∧
      ((s.addShot pitch yaw frame turnFrames).2 = true ↔
        ¬ List.Forall₂ SameContents s.blocks (s.addShot pitch yaw frame turnFrames).1.blocks) ∧
      OutsideKept s.blocks (s.addShot pitch yaw frame turnFrames).1.blocks frame turnFrames) ↔
    ¬ FoundElsewhere s.blocks pitch yaw frame turnFrames ∧
      ¬ (AlreadyThere s.blocks pitch yaw frame turnFrames ∧
        ¬ ((pitch == pitch) = true ∧ (yaw == yaw) = true)) := by
  have hturn : turnFrame frame turnFrames ≤ shootFrame frame := by
    unfold turnFrame shootFrame
    omega
  cases hchange : s.shotChangeDetected pitch yaw frame turnFrames with
  | true =>
    have hnotFound : ∀ turn shoot off, ¬ Found s.blocks pitch yaw frame turnFrames turn shoot off := by
      intro turn shoot off hfound
      rw [(shotChangeDetected_eq_false_iff hs).mpr ⟨turn, shoot, off, hfound⟩] at hchange
      cases hchange
    -- had the shot been there with values equal to themselves, it would have been found
    have hself : AlreadyThere s.blocks pitch yaw frame turnFrames →
        ¬ ((pitch == pitch) = true ∧ (yaw == yaw) = true) := by
      rintro h ⟨hpitch, hyaw⟩
      obtain ⟨b₁, hb₁, hf₁, hp₁, hy₁⟩ := h.turned
      obtain ⟨b₂, hb₂, hf₂, hv₂⟩ := h.pressed
      obtain ⟨b₃, hb₃, hf₃, hv₃⟩ := h.released
      exact hnotFound b₁ b₂ b₃ ⟨.of_frame_eq hb₁ hf₁, .of_frame_eq hb₂ hf₂, .of_frame_eq hb₃ hf₃,
        hasCvarValue_iff.mpr ⟨pitch, hp₁, hpitch⟩, hasCvarValue_iff.mpr ⟨yaw, hy₁, hyaw⟩,
        hasToggleValue_iff.mpr hv₂, hasToggleValue_iff.mpr hv₃⟩
    obtain ⟨hreturned, -, -⟩ := blockAt_addShot hs hturn hchange
    rw [hreturned, unchanged_iff_alreadyThere hs hturn hshoot hchange]
    constructor
    · rintro ⟨-, hhonest, -⟩
      refine ⟨?_, fun h => hhonest.mp rfl h.1⟩
      rintro ⟨turn, shoot, off, hfound, -⟩
      exact hnotFound turn shoot off hfound
    · rintro ⟨-, hnan⟩
      refine ⟨inPlace_addShot hs hturn hshoot hchange, ?_,
        outsideKept_addShot hs hturn hshoot hchange⟩
      exact ⟨fun _ h => hnan ⟨h, hself h⟩, fun _ => rfl⟩
  | false =>
    have heq : s.addShot pitch yaw frame turnFrames = (s, false) := by
      unfold addShot
      rw [hchange]
      rfl
    obtain ⟨turn, shoot, off, hfound⟩ := (shotChangeDetected_eq_false_iff hs).mp hchange
    obtain ⟨p, hp, hpe⟩ := hasCvarValue_iff.mp hfound.pitched
    obtain ⟨y, hy, hye⟩ := hasCvarValue_iff.mp hfound.yawed
    have hpressed := hasToggleValue_iff.mp hfound.pressed
    have hreleased := hasToggleValue_iff.mp hfound.released
    rw [heq]
    have hrefl : List.Forall₂ SameContents s.blocks s.blocks :=
      forall₂_same.mpr fun b _ => .refl b
    constructor
    · rintro ⟨hplace, -, -⟩
      obtain ⟨b₁, hb₁, hf₁, -⟩ := hplace.turned
      obtain ⟨b₂, hb₂, hf₂, -⟩ := hplace.pressed
      obtain ⟨b₃, hb₃, hf₃, -⟩ := hplace.released
      constructor
      · rintro ⟨turn', shoot', off', hfound', hoff⟩
        apply hoff
        rw [hfound'.turn_first.eq_of_frame_eq hs hb₁ hf₁,
          hfound'.shoot_first.eq_of_frame_eq hs hb₂ hf₂,
          hfound'.off_first.eq_of_frame_eq hs hb₃ hf₃]
        exact ⟨hf₁, hf₂, hf₃⟩
      · -- what was found has values equal to themselves
        rintro ⟨hthere, hnan⟩
        obtain ⟨c, hc, hcf, hcp, hcy⟩ := hthere.turned
        obtain rfl := hfound.turn_first.eq_of_frame_eq hs hc hcf
        rw [hcp] at hp
        rw [hcy] at hy
        cases hp
        cases hy
        exact hnan ⟨hpe, hye⟩
    · rintro ⟨helsewhere, -⟩
      have hon : turn.frame = turnFrame frame turnFrames ∧ shoot.frame = shootFrame frame ∧
          off.frame = shootOffFrame frame := by
        by_contra hoff
        exact helsewhere ⟨turn, shoot, off, hfound, hoff⟩
      refine ⟨⟨?_, ?_, ?_⟩, ?_, ?_⟩
      · exact ⟨turn, hfound.turn_first.mem, hon.1, ⟨p, hp, .inr hpe⟩, y, hy, .inr hye⟩
      · exact ⟨shoot, hfound.shoot_first.mem, hon.2.1, hpressed⟩
      · exact ⟨off, hfound.off_first.mem, hon.2.2, hreleased⟩
      · exact ⟨nofun, fun hchanged => absurd hrefl hchanged⟩
      · exact ⟨fun _ _ _ => rfl, fun _ _ _ => rfl, fun _ => rfl⟩

/-- A shot on frame 20 whose view turns on frame 16. -/
def shotAt20 : TASScript Int :=
  { blocks :=
      [{ frame := 1, commands := [str "map e1m1"] },
        { frame := 16
          convars := (empty.put (str "tas_view_pitch") 3).put (str "tas_view_yaw") 4 },
        { frame := 19, toggles := empty.put (str "attack") true },
        { frame := 20, toggles := empty.put (str "attack") false }] }

/-- Turning to another yaw five frames before the shot is placed and reported. -/
theorem add_shot_in_place_other_yaw :
    InPlace (shotAt20.addShot 3 5 20 5).1.blocks 3 5 20 5 ∧
      ((shotAt20.addShot 3 5 20 5).2 = true ↔
        ¬ List.Forall₂ SameContents shotAt20.blocks (shotAt20.addShot 3 5 20 5).1.blocks) ∧
      OutsideKept shotAt20.blocks (shotAt20.addShot 3 5 20 5).1.blocks 20 5 := by
  refine (add_shot_in_place_iff shotAt20 (by decide) 3 5 20 5 (by decide) (by decide)).mpr ⟨?_, ?_⟩
  · rintro ⟨turn, shoot, off, hfound, -⟩
    have hturn := (getFrameblock_eq_some_iff (s := shotAt20) (by decide)).mpr hfound.turn_first
    have hno : (shotAt20.getFrameblock (turnFrame 20 5)).any
        (fun b => b.hasCvarValue (str "tas_view_yaw") 5) = false := by decide
    rw [hturn] at hno
    exact absurd hfound.yawed (by simpa using hno)
  · rintro ⟨-, hnan⟩
    exact hnan ⟨by decide, by decide⟩

/-- With five turn frames the view should turn on frame 15.  The blocks on frames 16, 19 and 20 are
taken for those of the shot and nothing is placed on frame 15. -/
theorem shot_found_on_later_frame :
    turnFrame 20 5 = 15 ∧
      (shotAt20.addShot 3 4 20 5).2 = false ∧
      (shotAt20.addShot 3 4 20 5).1.blocks.map frame = [1, 16, 19, 20] := by
  decide

end TASQuake.Analysis.ShotPlacement
