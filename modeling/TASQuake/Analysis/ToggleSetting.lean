import TASQuake.Analysis.RandomIntegers
import TASQuake.Analysis.SettingBlock

/-!
# Setting a toggle

`SetToggle` erases an entry when the value asked for is the one stacked at the *current* frame,
which says nothing about the value in effect before the target frame.  `tas_edit_shots` clears the
toggle in its range, so what can go wrong there is the frame just behind the range, where a shot on
the last frame is released, and a script that the clearing has left without blocks.
-/

namespace TASQuake.Analysis.ToggleSetting

open Lib Session TASScript OrderedMap FrameBlock List

variable {F : Type}

/-! ## One setting -/

/-- What `SetToggle` does to the block of its frame. -/
def writeToggle (stacked : Bool) (cmd : Str) (v : Bool) (b : FrameBlock F) : FrameBlock F :=
  if stacked == v && b.toggles.contains cmd then { b with toggles := b.toggles.erase cmd }
  else { b with toggles := b.toggles.put cmd v }

section WriteToggle

variable (stacked : Bool) (cmd : Str) (v : Bool) (b : FrameBlock F)

@[simp] theorem frame_writeToggle : (writeToggle stacked cmd v b).frame = b.frame := by
  unfold writeToggle
  split <;> rfl

@[simp] theorem convars_writeToggle : (writeToggle stacked cmd v b).convars = b.convars := by
  unfold writeToggle
  split <;> rfl

@[simp] theorem commands_writeToggle : (writeToggle stacked cmd v b).commands = b.commands := by
  unfold writeToggle
  split <;> rfl

theorem find?_writeToggle_of_ne {name : Str} (h : name ≠ cmd) :
    (writeToggle stacked cmd v b).toggles.find? name = b.toggles.find? name := by
  unfold writeToggle
  split
  · simp [find?_erase, h]
  · simp [find?_put, h]

theorem find?_writeToggle_self :
    (writeToggle stacked cmd v b).toggles.find? cmd =
      if stacked == v && b.toggles.contains cmd then none else some v := by
  unfold writeToggle
  split
  · simp [find?_erase]
  · simp

end WriteToggle

variable {f : Int} {s : Session F}

theorem setToggle_eq (hne : s.blocks ≠ []) (env : HostEnv) (cmd : Str) (v : Bool) (hf : f ≠ -1) :
    ∃ before block after, WrittenAt f s.blocks before block after ∧
      setToggle env s cmd v f = some (((touchEdited env s).withBlocks
        (before ++ writeToggle (s.getStackedToggle cmd) cmd v block :: after)).scriptUpdated f) := by
  have hframe : s.playback.frameOrCurrent f = f := if_neg hf
  obtain ⟨before, block, after, hat, hget⟩ := blockForFrame_eq (s := touchEdited env s) hne f
  have hat' : WrittenAt f s.blocks before block after := by
    have hsame : (touchEdited env s).playback.frameOrCurrent f = f := hframe
    rw [hsame] at hat
    exact hat
  refine ⟨before, block, after, hat', ?_⟩
  unfold setToggle
  dsimp only
  rw [hframe, hget]
  show some (Session.scriptUpdated (ite _ _ _) f) = _
  rw [modifyBlock_withBlocks, modifyBlock_withBlocks]
  unfold writeToggle
  have hstacked : ((touchEdited env s).withBlocks (before ++ block :: after)).getStackedToggle cmd =
      s.getStackedToggle cmd := rfl
  rw [hstacked]
  split <;> rfl

/-- A block on the frame has an entry for the toggle. -/
def HasEntry (blocks : List (FrameBlock F)) (cmd : Str) (f : Int) : Prop :=
  ∃ b ∈ blocks, b.frame = f ∧ b.hasToggle cmd = true

theorem hasEntry_iff {blocks before after : List (FrameBlock F)} {block : FrameBlock F}
    (hat : WrittenAt f blocks before block after)
    (hs : blocks.Pairwise fun a b => a.frame < b.frame) (cmd : Str) :
    HasEntry blocks cmd f ↔ block.hasToggle cmd = true := by
  obtain ⟨hon, hafter⟩ := hat.strict hs
  constructor
  · rintro ⟨b, hb, hbf, hentry⟩
    have hb' : b ∈ before ++ after ∨ b = block := by
      rcases hat.split with ⟨rfl, -⟩ | ⟨rfl, -⟩
      · simp only [mem_append, mem_cons] at hb ⊢
        tauto
      · exact .inl hb
    rcases hb' with hb' | rfl
    · rcases mem_append.mp hb' with hb' | hb'
      · have hlt := hat.before_lt b hb'
        omega
      · have hlt := hafter b hb'
        omega
    · exact hentry
  · intro hentry
    rcases hat.split with ⟨rfl, -⟩ | ⟨-, rfl, -⟩
    · exact ⟨block, by simp, hon, hentry⟩
    · cases hentry

/-- What a setting leaves: all but the toggle from its frame on is as before, and on its frame the
toggle has the value asked for, or the one it had before the frame if its entry was erased. -/
structure ToggleSet (s s' : Session F) (cmd : Str) (v : Bool) (f : Int) : Prop where
  strict : s'.blocks.Pairwise fun a b => a.frame < b.frame
  nonempty : s'.blocks ≠ []
  stacked : s'.playback.stacked = s.playback.stacked
  others : ∀ b : FrameBlock F, b.frame ≠ f → (b ∈ s'.blocks ↔ b ∈ s.blocks)
  earlier : ∀ g < f, effectiveToggle s'.blocks g cmd = effectiveToggle s.blocks g cmd
  erased : s.getStackedToggle cmd = v → HasEntry s.blocks cmd f →
    effectiveToggle s'.blocks f cmd = effectiveToggle s.blocks (f - 1) cmd
  stored : ¬ (s.getStackedToggle cmd = v ∧ HasEntry s.blocks cmd f) →
    effectiveToggle s'.blocks f cmd = some v
  toggles : ∀ g name, name ≠ cmd → effectiveToggle s'.blocks g name = effectiveToggle s.blocks g name
  convars : ∀ g name, effectiveConvar s'.blocks g name = effectiveConvar s.blocks g name
  commands : ∀ g, commandsAt s'.blocks g = commandsAt s.blocks g

/-- **One call of `SetToggle`.** -/
theorem setToggle_spec (hne : s.blocks ≠ []) (hs : s.blocks.Pairwise fun a b => a.frame < b.frame)
    (env : HostEnv) (cmd : Str) (v : Bool) (hf : 0 ≤ f) :
    ∃ s', setToggle env s cmd v f = some s' ∧ ToggleSet s s' cmd v f := by
  obtain ⟨before, block, after, hat, hset⟩ := setToggle_eq hne env cmd v (f := f) (by omega)
  obtain ⟨hon, hafter⟩ := hat.strict hs
  have hblocks : (((touchEdited env s).withBlocks (before ++ writeToggle (s.getStackedToggle cmd) cmd
      v block :: after)).scriptUpdated f).blocks =
      before ++ writeToggle (s.getStackedToggle cmd) cmd v block :: after := rfl
  refine ⟨_, hset, ?_⟩
  -- nothing but the block of the frame and those before it is in force on the frame
  have hnone : upTo f after = [] := by
    apply filter_eq_nil_iff.mpr
    intro b hb
    have hlt := hafter b hb
    rw [decide_eq_true_eq]
    omega
  have hbefore : effectiveToggle s.blocks (f - 1) cmd =
      lastValue (fun b => b.toggles.find? cmd) before := by
    unfold effectiveToggle
    rw [← takeWhile_eq_upTo hs f, hat.takeWhile_eq]
  have hhere : effectiveToggle (before ++ writeToggle (s.getStackedToggle cmd) cmd v block :: after)
      f cmd = (if s.getStackedToggle cmd == v && block.toggles.contains cmd then none else some v).or
        (lastValue (fun b => b.toggles.find? cmd) before) := by
    unfold effectiveToggle
    rw [lastValue_upTo_of_frame_le (by simpa using hat.before_lt_frame) (by simp [hon]), hnone,
      find?_writeToggle_self]
    rfl
  have hentry := hasEntry_iff hat hs cmd
  refine ⟨?_, by simp [hblocks], rfl, ?_, ?_, ?_, ?_, ?_, ?_, ?_⟩
  · exact hat.pairwise hs (by simp)
  · intro b hb
    exact hat.mem_iff (by rwa [hon]) (by simp)
  · intro g hg
    have hlt : g < block.frame := by omega
    rw [hblocks]
    unfold effectiveToggle
    rw [hat.lastValue_eq rfl, upTo_of_lt_frame hlt, upTo_of_lt_frame (by simpa using hlt)]
  · intro hstacked hhas
    rw [hblocks, hhere, hbefore, hstacked]
    have hcontains : block.toggles.contains cmd = true := hentry.mp hhas
    simp [hcontains]
  · intro hkept
    rw [hblocks, hhere]
    have hcond : (s.getStackedToggle cmd == v && block.toggles.contains cmd) = false := by
      rw [Bool.eq_false_iff]
      intro htrue
      rw [Bool.and_eq_true, beq_iff_eq] at htrue
      exact hkept ⟨htrue.1, hentry.mpr htrue.2⟩
    simp [hcond]
  · intro g name hname
    rw [hblocks]
    unfold effectiveToggle
    rw [hat.lastValue_eq rfl]
    exact lastValue_upTo_rewrite before after (by simp)
      (find?_writeToggle_of_ne _ _ _ _ hname) g
  · intro g name
    rw [hblocks]
    unfold effectiveConvar
    rw [hat.lastValue_eq rfl]
    exact lastValue_upTo_rewrite before after (by simp) (by simp) g
  · intro g
    rw [hblocks, hat.commandsAt_eq]
    exact commandsAt_rewrite before after (by simp) (by simp) g

/-- The setting takes effect on its frame and changes nothing else. -/
structure TakesEffect (blocks blocks' : List (FrameBlock F)) (cmd : Str) (v : Bool) (f : Int) :
    Prop where
  value : (effectiveToggle blocks' f cmd).getD false = v
  earlier : ∀ g < f, effectiveToggle blocks' g cmd = effectiveToggle blocks g cmd
  toggles : ∀ g name, name ≠ cmd → effectiveToggle blocks' g name = effectiveToggle blocks g name
  convars : ∀ g name, effectiveConvar blocks' g name = effectiveConvar blocks g name
  commands : ∀ g, commandsAt blocks' g = commandsAt blocks g

/-- The value of a toggle just before a frame. -/
def valueBefore (blocks : List (FrameBlock F)) (f : Int) (cmd : Str) : Bool :=
  (effectiveToggle blocks (f - 1) cmd).getD false

/-- The value asked for is in effect before the current frame, but not before the frame it is asked
for, where the toggle has an entry. -/
def StackMisleads (blocks : List (FrameBlock F)) (currentFrame : Int) (cmd : Str) (v : Bool)
    (f : Int) : Prop :=
  valueBefore blocks currentFrame cmd = v ∧ HasEntry blocks cmd f ∧ valueBefore blocks f cmd ≠ v

theorem getStackedToggle_eq_valueBefore (hst : s.StackUpToDate)
    (hs : s.blocks.Pairwise fun a b => a.frame < b.frame) (cmd : Str) :
    s.getStackedToggle cmd = valueBefore s.blocks s.playback.currentFrame cmd := by
  rw [getStackedToggle_eq hst, takeWhile_eq_upTo hs]
  rfl

variable {v : Bool} {s' : Session F} {cmd : Str}

theorem ToggleSet.takesEffect_iff (h : ToggleSet s s' cmd v f) (hst : s.StackUpToDate)
    (hs : s.blocks.Pairwise fun a b => a.frame < b.frame) :
    TakesEffect s.blocks s'.blocks cmd v f ↔
      ¬ StackMisleads s.blocks s.playback.currentFrame cmd v f := by
  have hstacked := getStackedToggle_eq_valueBefore hst hs cmd
  have hvalue : (effectiveToggle s'.blocks f cmd).getD false = v ↔
      ¬ StackMisleads s.blocks s.playback.currentFrame cmd v f := by
    by_cases herase : s.getStackedToggle cmd = v ∧ HasEntry s.blocks cmd f
    · rw [h.erased herase.1 herase.2]
      have hv := herase.1
      rw [hstacked] at hv
      simp only [StackMisleads, hv, herase.2, true_and, not_not]
      rfl
    · rw [h.stored herase, Option.getD_some]
      simp only [true_iff]
      rintro ⟨hv, hentry, -⟩
      exact herase ⟨hstacked.trans hv, hentry⟩
  rw [← hvalue]
  exact ⟨fun he => he.value, fun he => ⟨he, h.earlier, h.toggles, h.convars, h.commands⟩⟩

/-! ## A row of shots -/

/-- The toggle that `tas_edit_shots` sets. -/
def attack : Str := str "attack"

/-- Attack is on on every frame of the list and off on the frame after it. -/
def ShotsPlaced (blocks : List (FrameBlock F)) (frames : List Int) : Prop :=
  ∀ x ∈ frames, (effectiveToggle blocks x attack).getD false = true ∧
    (effectiveToggle blocks (x + 1) attack).getD false = false

/-- No block of a range has an entry for attack. -/
def Cleared (low high : Int) (blocks : List (FrameBlock F)) : Prop :=
  ∀ f, low ≤ f → f ≤ high → ¬ HasEntry blocks attack f

theorem ToggleSet.hasEntry_iff {g : Int} (h : ToggleSet s s' cmd v f) (hg : g ≠ f) (name : Str) :
    HasEntry s'.blocks name g ↔ HasEntry s.blocks name g := by
  constructor
  · rintro ⟨b, hb, rfl, hentry⟩
    exact ⟨b, (h.others b hg).mp hb, rfl, hentry⟩
  · rintro ⟨b, hb, rfl, hentry⟩
    exact ⟨b, (h.others b hg).mpr hb, rfl, hentry⟩

theorem ToggleSet.getStackedToggle (h : ToggleSet s s' cmd v f) (name : Str) :
    s'.getStackedToggle name = s.getStackedToggle name := by
  unfold Session.getStackedToggle
  rw [h.stacked]

/-- What one shot of the row leaves. -/
structure ShotSet (s s' : Session F) (x : Int) : Prop where
  strict : s'.blocks.Pairwise fun a b => a.frame < b.frame
  nonempty : s'.blocks ≠ []
  stacked : s'.getStackedToggle attack = s.getStackedToggle attack
  entries : ∀ g, g ≠ x → g ≠ x + 1 → (HasEntry s'.blocks attack g ↔ HasEntry s.blocks attack g)
  earlier : ∀ g < x, effectiveToggle s'.blocks g attack = effectiveToggle s.blocks g attack
  pressed : effectiveToggle s'.blocks x attack = some true
  released : (effectiveToggle s'.blocks (x + 1) attack).getD false = false ↔
    ¬ (s.getStackedToggle attack = false ∧ HasEntry s.blocks attack (x + 1))

theorem shotSet (hne : s.blocks ≠ []) (hs : s.blocks.Pairwise fun a b => a.frame < b.frame)
    (env : HostEnv) {x : Int} (hx : 0 ≤ x) (hfree : ¬ HasEntry s.blocks attack x) :
    ∃ s₁ s', setToggle env s attack true x = some s₁ ∧
      setToggle env s₁ attack false (x + 1) = some s' ∧ ShotSet s s' x := by
  obtain ⟨s₁, hpress, h₁⟩ := setToggle_spec hne hs env attack true hx
  obtain ⟨s', hrelease, h₂⟩ := setToggle_spec h₁.nonempty h₁.strict env attack false
    (f := x + 1) (by omega)
  have hon := h₁.stored fun herase => hfree herase.2
  have hstacked := h₁.getStackedToggle attack
  have hentry := h₁.hasEntry_iff (g := x + 1) (by omega) attack
  refine ⟨s₁, s', hpress, hrelease, h₂.strict, h₂.nonempty, ?_, ?_, ?_, ?_, ?_⟩
  · rw [h₂.getStackedToggle, hstacked]
  · intro g hg hg'
    rw [h₂.hasEntry_iff hg', h₁.hasEntry_iff hg]
  · intro g hg
    rw [h₂.earlier g (by omega), h₁.earlier g hg]
  · rw [h₂.earlier x (by omega), hon]
  · rw [← hstacked, ← hentry]
    by_cases herase : s₁.getStackedToggle attack = false ∧ HasEntry s₁.blocks attack (x + 1)
    · rw [h₂.erased herase.1 herase.2, Int.add_sub_cancel, hon]
      simp [herase]
    · rw [h₂.stored herase]
      simp [herase]

variable {low : Int}

/-- **The loop of `tas_edit_shots`**: in a cleared range, only the release of a shot on the last
frame can fail. -/
theorem setShots_spec {high gap : Int} (hgap : 2 ≤ gap) (hlow : 0 ≤ low) (env : HostEnv)
    {frames : List Int} (hframes : ∀ x ∈ frames, low ≤ x ∧ x ≤ high)
    (hspaced : frames.IsChain fun x y => x + gap ≤ y) (hne : s.blocks ≠ [])
    (hs : s.blocks.Pairwise fun a b => a.frame < b.frame) (hclear : Cleared low high s.blocks) :
    ∃ s', setShots env s frames = some s' ∧
      (∀ g < low, effectiveToggle s'.blocks g attack = effectiveToggle s.blocks g attack) ∧
      (ShotsPlaced s'.blocks frames ↔
        ¬ (high ∈ frames ∧ s.getStackedToggle attack = false ∧
          HasEntry s.blocks attack (high + 1))) := by
  induction frames generalizing s low with
  | nil => exact ⟨s, rfl, fun _ _ => rfl, by simp [ShotsPlaced]⟩
  | cons x frames ih =>
    obtain ⟨hlx, hxh⟩ := hframes x mem_cons_self
    obtain ⟨s₁, s₂, hpress, hrelease, hshot⟩ := shotSet hne hs env (by omega) (hclear x hlx hxh)
    have hlater : ∀ y ∈ frames, x + 2 ≤ y ∧ y ≤ high := by
      intro y hy
      have htrans : IsTrans Int fun x y => x + gap ≤ y := ⟨fun a b c hab hbc => by omega⟩
      have hxy := (pairwise_cons.mp (isChain_iff_pairwise.mp hspaced)).1 y hy
      exact ⟨by omega, (hframes y (mem_cons_of_mem _ hy)).2⟩
    have hclear₂ : Cleared (x + 2) high s₂.blocks := by
      intro f hf hfh hentry
      exact hclear f (by omega) hfh ((hshot.entries f (by omega) (by omega)).mp hentry)
    have hnext : 0 ≤ x + 2 := by omega
    obtain ⟨s', hrest, hkept, hiff⟩ :=
      ih hnext hlater hspaced.tail hshot.nonempty hshot.strict hclear₂
    refine ⟨s', ?_, ?_, ?_⟩
    · show Option.bind (Option.bind (setToggle env s attack true x) _) _ = _
      rw [hpress]
      show Option.bind (setToggle env s₁ attack false (x + 1)) _ = _
      rw [hrelease]
      exact hrest
    · intro g hg
      rw [hkept g (by omega), hshot.earlier g (by omega)]
    · -- the later shots leave this one alone
      have hcons : ShotsPlaced s'.blocks (x :: frames) ↔
          (effectiveToggle s₂.blocks (x + 1) attack).getD false = false ∧
            ShotsPlaced s'.blocks frames := by
        unfold ShotsPlaced
        rw [forall_mem_cons, hkept x (by omega), hkept (x + 1) (by omega), hshot.pressed]
        simp
      rw [hcons, hshot.released, hiff, hshot.stacked]
      by_cases hlast : x = high
      · subst hlast
        have hnil : x ∉ frames := fun hmem => by
          have := hlater x hmem
          omega
        simp [hnil]
      · have hinside := hclear (x + 1) (by omega) (by omega)
        have hbehind := hshot.entries (high + 1) (by omega) (by omega)
        simp [hinside, hbehind, Ne.symm hlast]

/-! ## The command -/

/-- What `GetPlayerWeaponDelay` returns, for one weapon or another. (tas/utils.cpp:3-23) -/
def weaponDelays : List Int := [36, 51, 8, 44, 58]

/-- The block is in the range, and has no setting but attack. -/
structure Vanishes (low high : Int) (b : FrameBlock F) : Prop where
  low_le : low ≤ b.frame
  le_high : b.frame ≤ high
  convars : b.convars = .empty
  commands : b.commands = []
  toggles : b.toggles.erase attack = .empty

/-- The blocks that `tas_edit_shots` leaves before it places the shots. -/
def clearedBlocks (low high : Int) (blocks : List (FrameBlock F)) : List (FrameBlock F) :=
  (blocks.map fun b => if inRange low high b then
    { b with toggles := b.toggles.erase attack } else b).filter
      fun b => !(b.isBlank && inRange low high b)

theorem blocks_clearToggle (s : Session F) (low high : Int) :
    (s.clearToggle attack low high).blocks = clearedBlocks low high s.blocks := rfl

theorem inRange_iff {high : Int} {b : FrameBlock F} :
    inRange low high b = true ↔ low ≤ b.frame ∧ b.frame ≤ high := by
  simp [inRange]

section Clearing

variable {low high : Int} {blocks : List (FrameBlock F)}

theorem mem_clearedBlocks {b : FrameBlock F} :
    b ∈ clearedBlocks low high blocks ↔
      (∃ c ∈ blocks, (if inRange low high c then
        { c with toggles := c.toggles.erase attack } else c) = b) ∧
      ¬ (b.isBlank = true ∧ inRange low high b = true) := by
  unfold clearedBlocks
  rw [mem_filter, mem_map, Bool.not_eq_true', ← Bool.not_eq_true, Bool.and_eq_true]

theorem pairwise_clearedBlocks (hs : blocks.Pairwise fun a b => a.frame < b.frame) :
    (clearedBlocks low high blocks).Pairwise fun a b => a.frame < b.frame := by
  apply List.Pairwise.filter
  rw [pairwise_map]
  refine hs.imp fun {a b} hab => ?_
  have hframe : ∀ c : FrameBlock F, (if inRange low high c then
      { c with toggles := c.toggles.erase attack } else c).frame = c.frame := by
    intro c
    split <;> rfl
  rw [hframe, hframe]
  exact hab

theorem cleared_clearedBlocks : Cleared low high (clearedBlocks low high blocks) := by
  rintro f hlow hhigh ⟨b, hb, rfl, hentry⟩
  obtain ⟨⟨c, -, rfl⟩, -⟩ := mem_clearedBlocks.mp hb
  by_cases hc : inRange low high c = true
  · rw [if_pos hc] at hentry
    simp [hasToggle, OrderedMap.contains, find?_erase] at hentry
  · rw [if_neg hc] at hlow hhigh
    exact hc (inRange_iff.mpr ⟨hlow, hhigh⟩)

theorem hasEntry_clearedBlocks {f : Int} (hf : high < f) :
    HasEntry (clearedBlocks low high blocks) attack f ↔ HasEntry blocks attack f := by
  constructor
  · rintro ⟨b, hb, rfl, hentry⟩
    obtain ⟨⟨c, hc, rfl⟩, -⟩ := mem_clearedBlocks.mp hb
    by_cases hrange : inRange low high c = true
    · rw [if_pos hrange] at hf
      exact absurd (inRange_iff.mp hrange).2 (not_le.mpr hf)
    · rw [if_neg hrange] at hentry ⊢
      exact ⟨c, hc, rfl, hentry⟩
  · rintro ⟨b, hb, rfl, hentry⟩
    have hrange : ¬ inRange low high b = true := by
      rw [inRange_iff]
      omega
    exact ⟨b, mem_clearedBlocks.mpr ⟨⟨b, hb, if_neg hrange⟩, fun h => hrange h.2⟩, rfl, hentry⟩

theorem clearedBlocks_eq_nil_iff :
    clearedBlocks low high blocks = [] ↔ ∀ b ∈ blocks, Vanishes low high b := by
  rw [eq_nil_iff_forall_not_mem]
  constructor
  · intro hnil b hb
    have hblank := not_not.mp fun hkept =>
      hnil _ (mem_clearedBlocks.mpr ⟨⟨b, hb, rfl⟩, hkept⟩)
    by_cases hrange : inRange low high b = true
    · rw [if_pos hrange] at hblank
      obtain ⟨hconvars, hcommands, htoggles⟩ := (isBlank_iff _).mp hblank.1
      exact ⟨(inRange_iff.mp hrange).1, (inRange_iff.mp hrange).2, hconvars, hcommands, htoggles⟩
    · rw [if_neg hrange] at hblank
      exact absurd hblank.2 hrange
  · intro hall b hb
    obtain ⟨⟨c, hc, rfl⟩, hkept⟩ := mem_clearedBlocks.mp hb
    obtain ⟨hlow, hhigh, hconvars, hcommands, htoggles⟩ := hall c hc
    have hrange := inRange_iff.mpr ⟨hlow, hhigh⟩
    rw [if_pos hrange] at hkept
    exact hkept ⟨(isBlank_iff _).mpr ⟨hconvars, hcommands, htoggles⟩, hrange⟩

end Clearing

theorem setShots_eq_none (hnil : s.blocks = []) (env : HostEnv) {frames : List Int}
    (hne : frames ≠ []) : setShots env s frames = none := by
  cases frames with
  | nil => exact absurd rfl hne
  | cons x frames =>
    have hblock : (touchEdited env s).blockForFrame (s.playback.frameOrCurrent x) = none := by
      unfold blockForFrame PlaybackInfo.getBlockForFrame
      have hempty : (touchEdited env s).playback.currentScript.blocks.isEmpty = true := by
        have : (touchEdited env s).playback.currentScript.blocks = [] := hnil
        rw [this]
        rfl
      rw [if_pos hempty]
      rfl
    have hset : setToggle env s attack true x = none := by
      unfold setToggle
      dsimp only
      rw [hblock]
      rfl
    show Option.bind (Option.bind (setToggle env s attack true x) _) _ = _
    rw [hset]
    rfl

theorem editShots_eq (env : HostEnv) (hne : s.blocks ≠ []) {count high : Int}
    {interval : ShotInterval} {draws rest : Draws} {integers : List Int}
    (hbounds : interval.bounds s.playback.currentFrame = (low, high)) (hlow : 0 ≤ low)
    (hle : low ≤ high)
    (hdrawn : generateRandomIntegers count low high env.weaponDelay draws = .ok (integers, rest)) :
    editShots env s count interval draws =
      setShots env (s.clearToggle attack low high) integers := by
  have hempty : s.blocks.isEmpty = false := by simpa using hne
  unfold editShots
  simp only [hempty, hbounds, hdrawn, not_lt.mpr hlow, not_lt.mpr hle, if_false, Bool.false_eq_true]
  rfl

theorem editShots_placed_iff (env : HostEnv) (hdelay : env.weaponDelay ∈ weaponDelays)
    (hne : s.blocks ≠ []) (hs : s.blocks.Pairwise fun a b => a.frame < b.frame)
    (hst : s.StackUpToDate) {count high : Int} {interval : ShotInterval} {draws rest : Draws}
    {integers : List Int} (hbounds : interval.bounds s.playback.currentFrame = (low, high))
    (hlow : 0 ≤ low) (hle : low ≤ high)
    (hdrawn : generateRandomIntegers count low high env.weaponDelay draws = .ok (integers, rest)) :
    (∃ s', editShots env s count interval draws = some s' ∧ ShotsPlaced s'.blocks integers) ↔
      (∃ b ∈ s.blocks, ¬ Vanishes low high b) ∧
      ¬ (high ∈ integers ∧ valueBefore s.blocks s.playback.currentFrame attack = false ∧
        HasEntry s.blocks attack (high + 1)) := by
  have hgap : 2 ≤ env.weaponDelay := by
    have hall : ∀ d ∈ weaponDelays, (2 : Int) ≤ d := by decide
    exact hall _ hdelay
  have hchosen := chosen_generateRandomIntegers (by omega) hdrawn
  have hintegers : integers ≠ [] := by
    have hpos := (feasible_of_generateRandomIntegers hdrawn).pos
    have hlen := hchosen.length
    rintro rfl
    simp at hlen
    omega
  rw [editShots_eq env hne hbounds hlow hle hdrawn, ← getStackedToggle_eq_valueBefore hst hs]
  by_cases hleft : clearedBlocks low high s.blocks = []
  · rw [setShots_eq_none (by rwa [blocks_clearToggle]) env hintegers]
    have hvanish := clearedBlocks_eq_nil_iff.mp hleft
    constructor
    · rintro ⟨s', hs', -⟩
      cases hs'
    · rintro ⟨⟨b, hb, hkept⟩, -⟩
      exact absurd (hvanish b hb) hkept
  · have hkept : ∃ b ∈ s.blocks, ¬ Vanishes low high b := by
      by_contra hall
      push Not at hall
      exact hleft (clearedBlocks_eq_nil_iff.mpr hall)
    obtain ⟨s', hset, -, hiff⟩ := setShots_spec hgap hlow env hchosen.mem hchosen.spaced
      (s := s.clearToggle attack low high) (by rwa [blocks_clearToggle])
      (by rw [blocks_clearToggle]; exact pairwise_clearedBlocks hs)
      (by rw [blocks_clearToggle]; exact cleared_clearedBlocks)
    rw [blocks_clearToggle, hasEntry_clearedBlocks (by omega)] at hiff
    have hstacked : (s.clearToggle attack low high).getStackedToggle attack =
        s.getStackedToggle attack := rfl
    rw [hstacked] at hiff
    rw [hset]
    simp only [hkept, true_and, ← hiff, Option.some.injEq, exists_eq_left']

/-- **When a setting of a toggle takes effect.**  `SetToggle` on a frame takes effect there, and
changes nothing else, exactly if the stacked value does not mislead it.  A row of shots is placed
exactly if a block is left after clearing its range and no shot on the last frame of the range is
misled at its release. -/
theorem set_toggle_takes_effect_iff (env : HostEnv) (hdelay : env.weaponDelay ∈ weaponDelays)
    (s : Session F) (hne : s.blocks ≠ []) (hs : s.blocks.Pairwise fun a b => a.frame < b.frame)
    (hst : s.StackUpToDate) :
    (∀ cmd v f, 0 ≤ f → ∃ s', setToggle env s cmd v f = some s' ∧
      (TakesEffect s.blocks s'.blocks cmd v f ↔
        ¬ StackMisleads s.blocks s.playback.currentFrame cmd v f)) ∧
    (∀ count interval draws low high integers rest,
      interval.bounds s.playback.currentFrame = (low, high) → 0 ≤ low → low ≤ high →
      generateRandomIntegers count low high env.weaponDelay draws = .ok (integers, rest) →
      ((∃ s', editShots env s count interval draws = some s' ∧ ShotsPlaced s'.blocks integers) ↔
        (∃ b ∈ s.blocks, ¬ Vanishes low high b) ∧
        ¬ (high ∈ integers ∧ valueBefore s.blocks s.playback.currentFrame attack = false ∧
          HasEntry s.blocks attack (high + 1)))) := by
  constructor
  · intro cmd v f hf
    obtain ⟨s', hset, hspec⟩ := setToggle_spec hne hs env cmd v hf
    exact ⟨s', hset, hspec.takesEffect_iff hst hs⟩
  · intro count interval draws low high integers rest hbounds hlow hle hdrawn
    exact editShots_placed_iff env hdelay hne hs hst hbounds hlow hle hdrawn

/-- Attack is pressed on frame 12 and released on frame 14; the game is paused on frame 20. -/
def oneShot : Session Int :=
  { Session.init exampleHost with
    gameState := .paused
    playback :=
      { currentFrame := 20
        stacked := { toggles := empty.put attack true |>.put attack false }
        currentScript :=
          { blocks :=
              [{ frame := 1, commands := [str "map e1m1"] },
                { frame := 12, toggles := empty.put attack true },
                { frame := 14, toggles := empty.put attack false }] } } }

/-- Pressing attack on frame 16 takes effect, and so does a shot drawn from frames 2 to 4. -/
theorem set_toggle_takes_effect_on_frame_16 :
    (∃ s', setToggle (exampleEnv .connected) oneShot attack true 16 = some s' ∧
      TakesEffect oneShot.blocks s'.blocks attack true 16) ∧
    (∃ s', editShots (exampleEnv .connected) oneShot 1 (.range 2 4) [] = some s' ∧
      ShotsPlaced s'.blocks [2]) := by
  obtain ⟨hone, hrow⟩ := set_toggle_takes_effect_iff (exampleEnv .connected) (by decide) oneShot
    (by decide) (by decide) (by decide +kernel)
  obtain ⟨s', hset, hiff⟩ := hone attack true 16 (by decide)
  refine ⟨⟨s', hset, hiff.mpr fun h => absurd h.1 (by decide +kernel)⟩, ?_⟩
  refine (hrow 1 (.range 2 4) [] 2 4 [2] [] rfl (by decide) (by decide) (by decide)).mpr ⟨?_, ?_⟩
  · exact ⟨_, mem_cons_self, fun h => absurd h.low_le (by decide)⟩
  · rintro ⟨hmem, -⟩
    exact absurd hmem (by decide)

/-- Releasing attack on frame 14, where it is released already, erases the release: attack stays
on. -/
theorem release_turns_attack_on :
    oneShot.StackUpToDate ∧
      (effectiveToggle oneShot.blocks 14 attack).getD false = false ∧
      (setToggle (exampleEnv .connected) oneShot attack false 14).map
        (fun s' => (effectiveToggle s'.blocks 14 attack).getD false) = some true := by
  refine ⟨?_, ?_, ?_⟩ <;> decide +kernel

end TASQuake.Analysis.ToggleSetting
