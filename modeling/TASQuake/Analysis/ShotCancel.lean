import TASQuake.Analysis.BlockEdits

/-!
# Taking a shot away again

`AddShot` and `RemoveShot` write and erase entries in the windows of the shot, and they add and drop
blank blocks.  So the script without the entries of the windows and without blank blocks stays the
same (`core`); and when `RemoveShot` has run, no entry is left in the windows (`Clean`).  The
windows reach two frames beyond the shot if `AddShot` has changed the script.
-/

namespace TASQuake

open Lib TASScript FrameBlock OrderedMap Bool List

variable {F : Type}

/-! ## Erased entries -/

namespace FrameBlock

variable {view attack view' attack' : Int → Bool} {b : FrameBlock F}

theorem setConvarOn_absorb (name : Str) (value : Option F)
    (h : view' b.frame = true → view b.frame = true) :
    (b.setConvarOn view' name value).setConvarOn view name none =
      b.setConvarOn view name none := by
  unfold setConvarOn
  by_cases hframe : view' b.frame = true
  · simp only [hframe, if_true, h hframe]
    cases value with
    | none => rw [erase_erase_self]
    | some v => rw [erase_put_self]
  · simp only [hframe, false_eq_true, if_false]

theorem setConvarOn_comm {name name' : Str} (hne : name ≠ name') (value : Option F) :
    (b.setConvarOn view' name value).setConvarOn view name' none =
      (b.setConvarOn view name' none).setConvarOn view' name value := by
  unfold setConvarOn
  by_cases hframe : view b.frame = true
  · by_cases hframe' : view' b.frame = true
    · simp only [hframe, hframe', if_true]
      cases value with
      | none => rw [OrderedMap.erase_comm]
      | some v => rw [erase_put_of_ne _ hne]
    · simp only [hframe, hframe', if_true, false_eq_true, if_false]
  · by_cases hframe' : view' b.frame = true
    · simp only [hframe, hframe', if_true, false_eq_true, if_false]
    · simp only [hframe, hframe', false_eq_true, if_false]

theorem setToggleOn_absorb (name : Str) (value : Option Bool)
    (h : attack' b.frame = true → attack b.frame = true) :
    (b.setToggleOn attack' name value).setToggleOn attack name none =
      b.setToggleOn attack name none := by
  unfold setToggleOn
  by_cases hframe : attack' b.frame = true
  · simp only [hframe, if_true, h hframe]
    cases value with
    | none => rw [erase_erase_self]
    | some v => rw [erase_put_self]
  · simp only [hframe, false_eq_true, if_false]

theorem setConvarOn_setToggleOn (name name' : Str) (value : Option F) (value' : Option Bool) :
    (b.setToggleOn attack name' value').setConvarOn view name value =
      (b.setConvarOn view name value).setToggleOn attack name' value' := by
  unfold setConvarOn setToggleOn
  by_cases hframe : view b.frame = true
  · by_cases hframe' : attack b.frame = true
    · simp only [hframe, hframe', if_true]
    · simp only [hframe, hframe', if_true, false_eq_true, if_false]
  · by_cases hframe' : attack b.frame = true
    · simp only [hframe, hframe', if_true, false_eq_true, if_false]
    · simp only [hframe, hframe', false_eq_true, if_false]

theorem eraseShot_setConvarOn {name : Str} (hname : IsView name) (value : Option F)
    (h : view' b.frame = true → view b.frame = true) :
    (b.setConvarOn view' name value).eraseShot view attack = b.eraseShot view attack := by
  unfold eraseShot
  rcases hname with rfl | rfl
  · rw [setConvarOn_absorb _ _ h]
  · -- the yaw is erased in between
    have hne : str "tas_view_pitch" ≠ str "tas_view_yaw" := by decide
    rw [setConvarOn_comm hne, setConvarOn_absorb _ _ (by simpa using h)]

theorem eraseShot_setToggleOn (value : Option Bool)
    (h : attack' b.frame = true → attack b.frame = true) :
    (b.setToggleOn attack' (str "attack") value).eraseShot view attack =
      b.eraseShot view attack := by
  unfold eraseShot
  rw [setConvarOn_setToggleOn, setConvarOn_setToggleOn, setToggleOn_absorb _ _ (by simpa using h)]

theorem eraseShot_eraseShot (hview : view' b.frame = true → view b.frame = true)
    (hattack : attack' b.frame = true → attack b.frame = true) :
    (b.eraseShot view' attack').eraseShot view attack = b.eraseShot view attack := by
  have hfirst : b.eraseShot view' attack' =
      ((b.setConvarOn view' (str "tas_view_yaw") none).setConvarOn view' (str "tas_view_pitch") none
        ).setToggleOn attack' (str "attack") none := rfl
  rw [hfirst, eraseShot_setToggleOn _ (by simpa using hattack),
    eraseShot_setConvarOn (.inr rfl) _ (by simpa using hview),
    eraseShot_setConvarOn (.inl rfl) _ hview]

variable (view : Int → Bool)

theorem find?_convars_eraseShot (attack : Int → Bool) (b : FrameBlock F) (name : Str) :
    (b.eraseShot view attack).convars.find? name =
      if view b.frame = true ∧ IsView name then none else b.convars.find? name := by
  unfold eraseShot IsView
  rw [convars_setToggleOn, find?_setConvarOn, find?_setConvarOn, frame_setConvarOn]
  by_cases hview : view b.frame = true
  · by_cases hpitch : name = str "tas_view_pitch"
    · simp [hview, hpitch]
    · by_cases hyaw : name = str "tas_view_yaw"
      · simp [hview, hyaw]
      · simp [hpitch, hyaw]
  · simp [hview]

theorem find?_toggles_eraseShot (attack : Int → Bool) (b : FrameBlock F) (name : Str) :
    (b.eraseShot view attack).toggles.find? name =
      if attack b.frame = true ∧ name = str "attack" then none else b.toggles.find? name := by
  unfold eraseShot
  rw [find?_setToggleOn, toggles_setConvarOn, toggles_setConvarOn, frame_setConvarOn,
    frame_setConvarOn]

theorem eraseShot_of_isBlank (attack : Int → Bool) {b : FrameBlock F} (hb : b.isBlank = true) :
    (b.eraseShot view attack).isBlank = true := by
  obtain ⟨hconvars, hcommands, htoggles⟩ := b.isBlank_iff.mp hb
  refine (isBlank_iff _).mpr ⟨?_, by simpa using hcommands, ?_⟩
  · rw [eq_empty_iff]
    intro name
    rw [find?_convars_eraseShot, hconvars]
    split <;> rfl
  · rw [eq_empty_iff]
    intro name
    rw [find?_toggles_eraseShot, htoggles]
    split <;> rfl

end FrameBlock

/-! ## The script without the entries of the windows -/

section Core

variable (view attack : Int → Bool)

/-- The blocks without the entries of the windows; blank blocks are dropped. -/
def core (l : List (FrameBlock F)) : List (FrameBlock F) :=
  (l.map (eraseShot view attack)).filter fun b => !b.isBlank

variable {view attack}

theorem core_append (l l' : List (FrameBlock F)) :
    core view attack (l ++ l') = core view attack l ++ core view attack l' := by
  unfold core
  rw [map_append, filter_append]

theorem core_cons_of_isBlank {b : FrameBlock F} (hb : b.isBlank = true)
    (l : List (FrameBlock F)) : core view attack (b :: l) = core view attack l := by
  unfold core
  rw [map_cons, filter_cons_of_neg]
  simp [eraseShot_of_isBlank view attack hb]

theorem core_insertIdx {b : FrameBlock F} (hb : b.isBlank = true) (i : ℕ)
    (l : List (FrameBlock F)) : core view attack (l.insertIdx i b) = core view attack l := by
  induction l generalizing i with
  | nil =>
    cases i with
    | zero => exact core_cons_of_isBlank hb []
    | succ i => rfl
  | cons a l ih =>
    cases i with
    | zero => exact core_cons_of_isBlank hb _
    | succ i =>
      rw [insertIdx_succ_cons, ← singleton_append, core_append, ih, ← core_append]
      rfl

variable {g : FrameBlock F → FrameBlock F} {l : List (FrameBlock F)}

theorem core_modify {i : ℕ}
    (h : ∀ b, l[i]? = some b → (g b).eraseShot view attack = b.eraseShot view attack) :
    core view attack (l.modify i g) = core view attack l := by
  unfold core
  congr 1
  induction l generalizing i with
  | nil => simp
  | cons a l ih =>
    cases i with
    | zero => rw [modify_zero_cons, map_cons, map_cons, h a rfl]
    | succ i =>
      rw [modify_succ_cons, map_cons, map_cons, ih fun b hb => h b (by simpa using hb)]

theorem core_map (h : ∀ b ∈ l, (g b).eraseShot view attack = b.eraseShot view attack) :
    core view attack (l.map g) = core view attack l := by
  unfold core
  rw [map_map]
  congr 1
  exact map_congr_left h

theorem core_filter {p : FrameBlock F → Bool} (h : ∀ b ∈ l, p b = false → b.isBlank = true) :
    core view attack (l.filter p) = core view attack l := by
  induction l with
  | nil => rfl
  | cons a l ih =>
    have hrest := ih fun b hb => h b (mem_cons_of_mem _ hb)
    rw [filter_cons]
    split
    · rw [← singleton_append, core_append, hrest, ← core_append]
      rfl
    · next hp =>
      rw [hrest, core_cons_of_isBlank (h a mem_cons_self (by simpa using hp))]

/-! ## No entry in the windows -/

/-- No block has an entry in the windows. -/
def Clean (view attack : Int → Bool) (l : List (FrameBlock F)) : Prop :=
  ∀ b ∈ l, (view b.frame = true → ∀ name, IsView name → b.convars.find? name = none) ∧
    (attack b.frame = true → b.toggles.find? (str "attack") = none)

variable {view' attack' : Int → Bool} {l : List (FrameBlock F)}

theorem Clean.sublist {l' : List (FrameBlock F)} (h : Clean view attack l) (hs : l'.Sublist l) :
    Clean view attack l' :=
  fun b hb => h b (hs.subset hb)

theorem Clean.map_eraseShot (h : Clean view' attack' l) :
    Clean (fun f => view f || view' f) (fun f => attack f || attack' f)
      (l.map (eraseShot view attack)) := by
  intro b hb
  obtain ⟨a, ha, rfl⟩ := mem_map.mp hb
  obtain ⟨hview, hattack⟩ := h a ha
  simp only [frame_eraseShot, or_eq_true]
  constructor
  · intro hframe name hname
    rw [find?_convars_eraseShot]
    split
    · rfl
    · next hnot =>
      rcases hframe with hframe | hframe
      · exact absurd ⟨hframe, hname⟩ hnot
      · exact hview hframe name hname
  · intro hframe
    rw [find?_toggles_eraseShot]
    split
    · rfl
    · next hnot =>
      rcases hframe with hframe | hframe
      · exact absurd ⟨hframe, rfl⟩ hnot
      · exact hattack hframe

theorem Clean.mono (h : Clean view' attack' l) (hview : ∀ f, view f = true → view' f = true)
    (hattack : ∀ f, attack f = true → attack' f = true) : Clean view attack l := by
  intro b hb
  obtain ⟨hv, ha⟩ := h b hb
  exact ⟨fun hf => hv (hview _ hf), fun hf => ha (hattack _ hf)⟩

theorem clean_map_eraseShot : Clean view attack (l.map (eraseShot view attack)) := by
  have hnone : Clean (fun _ => false) (fun _ => false) l := fun b _ => ⟨nofun, nofun⟩
  have herased : Clean (fun f => view f || false) (fun f => attack f || false)
      (l.map (eraseShot view attack)) := hnone.map_eraseShot
  simpa using herased

theorem Clean.getBlockForInsertion {s : TASScript F} (h : Clean view attack s.blocks)
    (frame : Int) : Clean view attack (s.getBlockForInsertion frame).1.blocks := by
  rcases s.getBlockForInsertion_cases frame with ⟨b, -, -, heq⟩ | ⟨-, heq⟩
  · rw [heq]
    exact h
  · rw [heq]
    intro b hb
    have hb' : b ∈ s.blocks.insertIdx (s.getBlockIndex frame) { frame := frame } := hb
    have hle : s.getBlockIndex frame ≤ s.blocks.length := findIdx_le_length
    rw [mem_insertIdx hle] at hb'
    rcases hb' with rfl | hb'
    · exact ⟨fun _ _ _ => rfl, fun _ => rfl⟩
    · exact h b hb'

theorem Clean.modify (h : Clean view attack l) {i : ℕ}
    (hg : ∀ b, l[i]? = some b → Clean view attack [g b]) : Clean view attack (l.modify i g) := by
  intro b hb
  obtain ⟨j, hj⟩ := mem_iff_getElem?.mp hb
  rw [getElem?_modify] at hj
  obtain ⟨a, ha, rfl⟩ := Option.map_eq_some_iff.mp hj
  split
  · next heq => exact hg a (heq ▸ ha) _ mem_cons_self
  · exact h a (mem_of_getElem? ha)

end Core

/-! ## Adding and removing the shot -/

section Shot

variable {view attack : Int → Bool} {s : TASScript F} {pitch yaw : F} {frame turnFrames : Int}

/-- What the windows contain at least. -/
structure Covers (view attack : Int → Bool) (frame turnFrames : Int) : Prop where
  turn : view (turnFrame frame turnFrames) = true
  shoot : attack (shootFrame frame) = true
  off : attack (shootOffFrame frame) = true

theorem core_getBlockForInsertion (s : TASScript F) (f : Int) :
    core view attack (s.getBlockForInsertion f).1.blocks = core view attack s.blocks := by
  rcases s.getBlockForInsertion_cases f with ⟨b, -, -, heq⟩ | ⟨-, heq⟩
  · rw [heq]
  · rw [heq]
    exact core_insertIdx rfl _ _

theorem eraseShot_putConvar {b : FrameBlock F} (hframe : view b.frame = true) {name : Str}
    (hname : IsView name) (v : F) :
    ({ b with convars := b.convars.put name v } : FrameBlock F).eraseShot view attack =
      b.eraseShot view attack := by
  have hput : ({ b with convars := b.convars.put name v } : FrameBlock F) =
      b.setConvarOn (fun _ => true) name (some v) := rfl
  rw [hput]
  exact eraseShot_setConvarOn hname (some v) fun _ => hframe

theorem eraseShot_putToggle {b : FrameBlock F} (hframe : attack b.frame = true) (v : Bool) :
    ({ b with toggles := b.toggles.put (str "attack") v } : FrameBlock F).eraseShot view attack =
      b.eraseShot view attack := by
  have hput : ({ b with toggles := b.toggles.put (str "attack") v } : FrameBlock F) =
      b.setToggleOn (fun _ => true) (str "attack") (some v) := rfl
  rw [hput]
  exact eraseShot_setToggleOn (some v) fun _ => hframe

variable {f : Int} {i : ℕ}

theorem core_setConvarAt (hi : (s.blocks[i]?).map FrameBlock.frame = some f) (hf : view f = true)
    {name : Str} (hname : IsView name) (v : F) :
    core view attack (s.setConvarAt i name v).blocks = core view attack s.blocks := by
  apply core_modify
  intro b hb
  rw [hb] at hi
  exact eraseShot_putConvar (Option.some.inj hi ▸ hf) hname v

theorem core_setToggleAt (hi : (s.blocks[i]?).map FrameBlock.frame = some f) (hf : attack f = true)
    (v : Bool) :
    core view attack (s.setToggleAt i (str "attack") v).blocks = core view attack s.blocks := by
  apply core_modify
  intro b hb
  rw [hb] at hi
  exact eraseShot_putToggle (Option.some.inj hi ▸ hf) v

theorem Clean.setConvarAt (h : Clean view attack s.blocks)
    (hi : (s.blocks[i]?).map FrameBlock.frame = some f) (hf : view f = false) (name : Str) (v : F) :
    Clean view attack (s.setConvarAt i name v).blocks := by
  refine h.modify fun b hb => ?_
  rw [hb] at hi
  have hbf : b.frame = f := Option.some.inj hi
  intro a ha
  rw [mem_singleton.mp ha]
  refine ⟨fun hv => ?_, (h b (mem_of_getElem? hb)).2⟩
  have hv' := hv
  rw [hbf, hf] at hv'
  cases hv'

theorem Clean.setToggleAt (h : Clean view attack s.blocks)
    (hi : (s.blocks[i]?).map FrameBlock.frame = some f) (hf : attack f = false) (name : Str)
    (v : Bool) : Clean view attack (s.setToggleAt i name v).blocks := by
  refine h.modify fun b hb => ?_
  rw [hb] at hi
  have hbf : b.frame = f := Option.some.inj hi
  intro a ha
  rw [mem_singleton.mp ha]
  refine ⟨(h b (mem_of_getElem? hb)).1, fun hv => ?_⟩
  have hv' := hv
  rw [hbf, hf] at hv'
  cases hv'

theorem covers_windows (frame turnFrames : Int) :
    Covers (viewWindow frame turnFrames) (attackWindow frame) frame turnFrames := by
  have hrange : clearRange = 2 := rfl
  have hshoot := shootFrame_le_shootOffFrame frame
  refine ⟨?_, ?_, ?_⟩
  · simp only [viewWindow, between_iff]
    omega
  · simp only [attackWindow, between_iff]
    omega
  · simp only [attackWindow, between_iff]
    omega

/-- The frames of the shot on which the view is set. -/
def viewShot (frame turnFrames : Int) : Int → Bool :=
  between (turnFrame frame turnFrames) (turnFrame frame turnFrames)

/-- The frames of the shot on which `attack` is set. -/
def attackShot (frame : Int) : Int → Bool := between (shootFrame frame) (shootOffFrame frame)

variable (hturn : turnFrame frame turnFrames ≤ shootFrame frame)

include hturn

theorem core_writeShot (h : Covers view attack frame turnFrames) (s : TASScript F) (pitch yaw : F) :
    core view attack (s.writeShot pitch yaw frame turnFrames).blocks =
      core view attack s.blocks := by
  refine writeShot_keeps (P := fun t => core view attack t.blocks = core view attack s.blocks)
    pitch yaw hturn rfl ?_ ?_ ?_
  · intro t f _ ht
    rw [core_getBlockForInsertion, ht]
  · intro t i name v hon hname ht
    rw [core_setConvarAt hon h.turn hname, ht]
  · intro t i f v hon hf ht
    have hattack : attack f = true := by
      rcases hf with rfl | rfl
      · exact h.shoot
      · exact h.off
    rw [core_setToggleAt hon hattack, ht]

theorem Clean.writeShot (h : Clean view attack s.blocks)
    (hv : view (turnFrame frame turnFrames) = false) (ha : attack (shootFrame frame) = false)
    (ha' : attack (shootOffFrame frame) = false) (pitch yaw : F) :
    Clean view attack (s.writeShot pitch yaw frame turnFrames).blocks := by
  refine writeShot_keeps (P := fun t => Clean view attack t.blocks) pitch yaw hturn h ?_ ?_ ?_
  · intro t f _ ht
    exact ht.getBlockForInsertion f
  · intro t i name v hon _ ht
    exact ht.setConvarAt hon hv name v
  · intro t i f v hon hf ht
    have hattack : attack f = false := by
      rcases hf with rfl | rfl
      · exact ha
      · exact ha'
    exact ht.setToggleAt hon hattack _ v

/-- **One call of `AddShot`** keeps the core of the script. -/
theorem core_addShot [BEq F] (s : TASScript F) (pitch yaw : F) :
    core (viewWindow frame turnFrames) (attackWindow frame)
        (s.addShot pitch yaw frame turnFrames).1.blocks =
      core (viewWindow frame turnFrames) (attackWindow frame) s.blocks := by
  unfold addShot
  split
  · show core _ _ (filter _ _) = _
    rw [core_filter, core_writeShot hturn (covers_windows frame turnFrames), blocks_clearShotWindow]
    · exact core_map fun b _ => eraseShot_eraseShot id id
    · intro b _ hb
      simp only [not_eq_false', and_eq_true] at hb
      exact hb.1
  · rfl

theorem clean_addShot [BEq F] (s : TASScript F) {pitch yaw : F}
    (hchange : s.shotChangeDetected pitch yaw frame turnFrames = true) :
    Clean (fun f => viewWindow frame turnFrames f && !viewShot frame turnFrames f)
      (fun f => attackWindow frame f && !attackShot frame f)
      (s.addShot pitch yaw frame turnFrames).1.blocks := by
  have hshoot := shootFrame_le_shootOffFrame frame
  have hclear : Clean (fun f => viewWindow frame turnFrames f && !viewShot frame turnFrames f)
      (fun f => attackWindow frame f && !attackShot frame f)
      (s.clearShotWindow frame turnFrames).blocks := by
    rw [blocks_clearShotWindow]
    refine clean_map_eraseShot.mono ?_ ?_
    · intro f hf
      exact (and_eq_true_iff.mp hf).1
    · intro f hf
      exact (and_eq_true_iff.mp hf).1
  have hwrite := hclear.writeShot hturn (by simp [viewShot, between])
    (by simp [attackShot, between, hshoot]) (by simp [attackShot, between, hshoot]) pitch yaw
  unfold addShot
  rw [if_pos hchange]
  exact hwrite.sublist filter_sublist

omit hturn

theorem removeShot_eq (s : TASScript F) (frame turnFrames : Int) :
    (s.removeShot frame turnFrames).blocks =
      (s.blocks.map (eraseShot (viewShot frame turnFrames) (attackShot frame))).filter
        fun b => !(b.isBlank && inRange (turnFrame frame turnFrames) (shootOffFrame frame) b) := by
  unfold removeShot prune
  dsimp only
  rw [blocks_removeTogglesFromRange, blocks_removeCvarsFromRange, blocks_removeCvarsFromRange,
    map_map, map_map]
  rfl

/-- **What `RemoveShot` leaves**: the core of the script, and no entry on the frames of the shot. -/
theorem core_removeShot (h : ∀ f, viewShot frame turnFrames f = true → view f = true)
    (h' : ∀ f, attackShot frame f = true → attack f = true) (s : TASScript F) :
    core view attack (s.removeShot frame turnFrames).blocks = core view attack s.blocks := by
  rw [removeShot_eq, core_filter]
  · exact core_map fun b _ => eraseShot_eraseShot (h _) (h' _)
  · intro b _ hb
    simp only [not_eq_false', and_eq_true] at hb
    exact hb.1

theorem Clean.removeShot (h : Clean view attack s.blocks) (frame turnFrames : Int) :
    Clean (fun f => viewShot frame turnFrames f || view f)
      (fun f => attackShot frame f || attack f) (s.removeShot frame turnFrames).blocks := by
  rw [removeShot_eq]
  exact h.map_eraseShot.sublist filter_sublist

end Shot

/-! ## What is in effect -/

section Effect

variable {view attack : Int → Bool} {l l₀ : List (FrameBlock F)}

variable {b : FrameBlock F}

variable {ν : Type}

theorem lastValue_map_of_mem {value : FrameBlock F → Option ν} {g : FrameBlock F → FrameBlock F}
    (hframe : ∀ b, (g b).frame = b.frame) (hvalue : ∀ b ∈ l, value (g b) = value b) (f : Int) :
    lastValue value (upTo f (l.map g)) = lastValue value (upTo f l) := by
  induction l with
  | nil => rfl
  | cons b l ih =>
    have hrest := ih fun c hc => hvalue c (mem_cons_of_mem _ hc)
    unfold upTo at hrest ⊢
    rw [map_cons, filter_cons, filter_cons, hframe]
    split
    · rw [lastValue_cons, lastValue_cons, hrest, hvalue b mem_cons_self]
    · exact hrest

theorem lastValue_upTo_core {value : FrameBlock F → Option ν}
    (hblank : ∀ b : FrameBlock F, b.isBlank = true → value b = none) (f : Int) :
    lastValue value (upTo f (core view attack l)) =
      lastValue value (upTo f (l.map (eraseShot view attack))) := by
  unfold core upTo
  rw [filter_filter, filter_congr (fun b _ => and_comm _ _), ← filter_filter]
  refine lastValue_filter value _ fun b _ hb => hblank b ?_
  simpa using hb

theorem lastValue_of_core_eq {value : FrameBlock F → Option ν}
    (hblank : ∀ b : FrameBlock F, b.isBlank = true → value b = none)
    (hvalue : ∀ b ∈ l, value (b.eraseShot view attack) = value b)
    (hcore : core view attack l = core view attack l₀) (f : Int) :
    lastValue value (upTo f l) =
      lastValue value (upTo f (l₀.map (eraseShot view attack))) := by
  rw [← lastValue_upTo_core hblank, ← hcore, lastValue_upTo_core hblank,
    lastValue_map_of_mem (by simp) hvalue]

theorem Clean.convars_eraseShot (h : Clean view attack l) (hb : b ∈ l) (name : Str) :
    (b.eraseShot view attack).convars.find? name = b.convars.find? name := by
  rw [find?_convars_eraseShot]
  split
  · next hname => exact ((h b hb).1 hname.1 name hname.2).symm
  · rfl

theorem Clean.toggles_eraseShot (h : Clean view attack l) (hb : b ∈ l) (name : Str) :
    (b.eraseShot view attack).toggles.find? name = b.toggles.find? name := by
  rw [find?_toggles_eraseShot]
  split
  · next hname => rw [hname.2, (h b hb).2 hname.1]
  · rfl

theorem commandsAt_map_eraseShot (f : Int) :
    commandsAt (l.map (eraseShot view attack)) f = commandsAt l f := by
  unfold commandsAt
  rw [filter_map, flatMap_map]
  congr 1
  · funext b
    simp
  · congr 1
    funext b
    simp

theorem commandsAt_core (f : Int) : commandsAt (core view attack l) f = commandsAt l f :=
  (commandsAt_filter_isBlank _ f).trans (commandsAt_map_eraseShot f)

/-- Two scripts with the same values in effect and the same commands on every frame. -/
structure SameEffect (l l' : List (FrameBlock F)) : Prop where
  convars : ∀ f name, effectiveConvar l f name = effectiveConvar l' f name
  toggles : ∀ f name, effectiveToggle l f name = effectiveToggle l' f name
  commands : ∀ f, commandsAt l f = commandsAt l' f

/-- **What is in effect when the shot is taken away**: what is in effect without the entries of the
windows. -/
theorem Clean.sameEffect (h : Clean view attack l)
    (hcore : core view attack l = core view attack l₀) :
    SameEffect l (l₀.map (eraseShot view attack)) := by
  refine ⟨fun f name => ?_, fun f name => ?_, fun f => ?_⟩
  · exact lastValue_of_core_eq (fun b hb => isBlank_convars hb name)
      (fun b hb => h.convars_eraseShot hb name) hcore f
  · exact lastValue_of_core_eq (fun b hb => isBlank_toggles hb name)
      (fun b hb => h.toggles_eraseShot hb name) hcore f
  · rw [commandsAt_map_eraseShot, ← commandsAt_core, hcore, commandsAt_core]

end Effect

end TASQuake
