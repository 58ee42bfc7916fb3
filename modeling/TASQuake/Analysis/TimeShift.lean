import TASQuake.Interface.ScriptMeaning

/-!
# Cutting a script at a frame and splicing it back

For a script with strictly increasing frames `GetTimeShiftedVersion` returns everything up to a
frame folded into one block, and the later blocks (`blocks_getTimeShiftedVersion`); `AddScript` then
gives back the blocks before the cut, the folded block on the cut and the blocks after it, less the
blank ones (`blocks_addScript_timeShifted`).
-/

namespace TASQuake.Analysis.TimeShift

open Lib FrameBlock PlaybackInfo OrderedMap List

variable {F : Type}

/-- The blocks after a frame. -/
def after (c : Int) (blocks : List (FrameBlock F)) : List (FrameBlock F) :=
  blocks.filter fun b => decide (c < b.frame)

/-! ## The loop of `GetTimeShiftedVersion` -/

/-- What the loop does to the stacked block on a block at or before the cut. -/
def foldStep (c : Int) (stacked block : FrameBlock F) : FrameBlock F :=
  if block.frame = c then { stacked.stack block with commands := block.commands }
  else stacked.stack block

/-- The blocks returned, from the three locals of the loop. -/
def finish (st : TimeShift F) : List (FrameBlock F) :=
  if st.addedStack then st.output else st.output ++ [st.stacked]

variable {l : List (FrameBlock F)}

theorem foldl_timeShiftStep_upTo {c : Int} (h : ∀ b ∈ l, b.frame ≤ c) (st : TimeShift F) :
    l.foldl (timeShiftStep c) st =
      { st with stacked := l.foldl (foldStep c) st.stacked } := by
  induction l generalizing st with
  | nil => rfl
  | cons b l ih =>
    have hb : b.frame ≤ c := h b mem_cons_self
    have hl : ∀ b' ∈ l, b'.frame ≤ c := fun b' hb' => h b' (mem_cons_of_mem _ hb')
    have hstep : timeShiftStep c st b =
        { st with stacked := foldStep c st.stacked b } := by
      unfold timeShiftStep foldStep
      rw [if_pos hb]
    rw [foldl_cons, foldl_cons, hstep, ih hl]

/-- After the cut every block is appended, moved to the front; the folded block goes out
before the first of them. -/
theorem finish_foldl_timeShiftStep {c : Int} (h : ∀ b ∈ l, c < b.frame) (st : TimeShift F) :
    finish (l.foldl (timeShiftStep c) st) =
      finish st ++ l.map (shiftFrame (-c)) := by
  induction l generalizing st with
  | nil => simp
  | cons b l ih =>
    have hb : ¬ b.frame ≤ c := not_le.mpr (h b mem_cons_self)
    have hl : ∀ b' ∈ l, c < b'.frame := fun b' hb' => h b' (mem_cons_of_mem _ hb')
    have hstep : finish (timeShiftStep c st b) =
        finish st ++ [b.shiftFrame (-c)] := by
      unfold timeShiftStep
      rw [if_neg hb]
      rfl
    rw [foldl_cons, ih hl, hstep, map_cons, append_assoc, singleton_append]

theorem finish_timeShiftStep_ne_nil {c : Int} {st : TimeShift F} (h : finish st ≠ [])
    (b : FrameBlock F) : finish (timeShiftStep c st b) ≠ [] := by
  unfold timeShiftStep
  split
  · unfold finish at h ⊢
    cases hadded : st.addedStack with
    | true => simpa [hadded] using h
    | false => simp
  · exact append_ne_nil_of_right_ne_nil _ (cons_ne_nil _ _)

theorem getTimeShiftedVersion_ne_nil (info : PlaybackInfo F) (startFrame : Int) :
    (info.getTimeShiftedVersion startFrame).currentScript.blocks ≠ [] := by
  have hfinish : ∀ (c : Int) (l : List (FrameBlock F)) (st : TimeShift F), finish st ≠ [] →
      finish (l.foldl (timeShiftStep c) st) ≠ [] := by
    intro c l
    induction l with
    | nil => exact fun st h => h
    | cons b l ih => exact fun st h => ih _ (finish_timeShiftStep_ne_nil h b)
  exact hfinish _ _ _ (cons_ne_nil _ _)

/-! ## The folded block -/

/-- The block into which `GetTimeShiftedVersion` folds the blocks up to the cut. -/
def folded (c : Int) (blocks : List (FrameBlock F)) : FrameBlock F :=
  (upTo c blocks).foldl (foldStep c) { frame := 0, parsed := true }

variable (c : Int)

theorem foldStep_fields (st b : FrameBlock F) :
    (foldStep c st b).frame = st.frame ∧ (foldStep c st b).convars = (st.stack b).convars ∧
      (foldStep c st b).toggles = (st.stack b).toggles := by
  unfold foldStep
  split <;> exact ⟨rfl, rfl, rfl⟩

theorem foldl_foldStep_fields (st : FrameBlock F) (l : List (FrameBlock F)) :
    (l.foldl (foldStep c) st).frame = st.frame ∧
      (l.foldl (foldStep c) st).convars = (stackAll st l).convars ∧
      (l.foldl (foldStep c) st).toggles = (stackAll st l).toggles := by
  induction l generalizing st with
  | nil => exact ⟨rfl, rfl, rfl⟩
  | cons b l ih =>
    obtain ⟨hf, hc, ht⟩ := foldStep_fields c st b
    obtain ⟨ihf, ihc, iht⟩ := ih (foldStep c st b)
    obtain ⟨hc', ht'⟩ := stackAll_congr hc ht l
    exact ⟨ihf.trans hf, ihc.trans hc', iht.trans ht'⟩

theorem commands_foldl_foldStep (st : FrameBlock F) (h : l.Pairwise fun a b => a.frame < b.frame) :
    (l.foldl (foldStep c) st).commands =
      if (l.any fun b => decide (b.frame = c)) then commandsAt l c else st.commands := by
  induction l generalizing st with
  | nil => rfl
  | cons b l ih =>
    obtain ⟨hb, hl⟩ := pairwise_cons.mp h
    rw [foldl_cons, ih (foldStep c st b) hl]
    by_cases hc : b.frame = c
    · -- frames increase strictly, so no later block is on the cut
      have hnone : ∀ b' ∈ l, ¬ b'.frame = c := by
        intro b' hb'
        have hlt := hb b' hb'
        omega
      have hany : (l.any fun b' => decide (b'.frame = c)) = false := by
        simpa using hnone
      have hfilter : l.filter (fun b' => decide (b'.frame = c)) = [] := by
        simpa using hnone
      have hcmd : (foldStep c st b).commands = b.commands := by
        unfold foldStep
        rw [if_pos hc]
      unfold commandsAt
      rw [any_cons, filter_cons_of_pos (by simpa using hc), hany, hfilter, hcmd]
      simp [hc]
    · have hcmd : (foldStep c st b).commands = st.commands := by
        unfold foldStep
        rw [if_neg hc]
        rfl
      unfold commandsAt
      rw [any_cons, filter_cons_of_neg (by simpa using hc), hcmd]
      simp [hc]

section Cut

variable {l : List (FrameBlock F)} (h : l.Pairwise fun a b => a.frame < b.frame)

include h

theorem keySorted_of_strict : KeySorted frame l :=
  h.imp fun hab => hab.le

theorem upTo_append_after (c : Int) : upTo c l ++ after c l = l := by
  have hsplit := (keySorted_of_strict h).below_append_filter (c + 1)
  have hlow : below frame (c + 1) l = upTo c l := by
    unfold below upTo
    refine filter_congr fun b _ => ?_
    rw [decide_eq_decide]
    omega
  have hhigh : l.filter (fun b => decide (c + 1 ≤ b.frame)) = after c l := by
    unfold after
    refine filter_congr fun b _ => ?_
    rw [decide_eq_decide]
    omega
  rw [hlow, hhigh] at hsplit
  exact hsplit

theorem commands_folded (c : Int) : (folded c l).commands = commandsAt l c := by
  have hsub : (upTo c l).Pairwise fun a b => a.frame < b.frame := h.sublist filter_sublist
  have hat : commandsAt (upTo c l) c = commandsAt l c := by
    unfold commandsAt upTo
    rw [filter_filter]
    congr 1
    refine filter_congr fun b _ => ?_
    by_cases hb : b.frame = c
    · simp [hb]
    · simp [hb]
  unfold folded
  rw [commands_foldl_foldStep c _ hsub, hat]
  split
  · rfl
  · next hany =>
    -- no block on the cut: there is nothing to execute there
    have hnone : ∀ b ∈ l, ¬ b.frame = c := by
      intro b hb hbc
      refine hany (any_eq_true.mpr ⟨b, ?_, by simpa using hbc⟩)
      exact mem_filter.mpr ⟨hb, by simpa using hbc.le⟩
    have hfilter : l.filter (fun b => decide (b.frame = c)) = [] := by
      simpa using hnone
    unfold commandsAt
    rw [hfilter]
    rfl

/-- `GetTimeShiftedVersion` returns the folded block and the later blocks, moved to the
front. (libtasquake/src/script_playback.cpp:68-106) -/
theorem blocks_getTimeShiftedVersion {info : PlaybackInfo F} (hl : info.currentScript.blocks = l)
    {c : Int} (hc : 0 ≤ c) :
    (info.getTimeShiftedVersion c).currentScript.blocks =
      folded c l :: (after c l).map (shiftFrame (-c)) := by
  have hframe : info.frameOrCurrent c = c := by
    unfold frameOrCurrent
    rw [if_neg (by omega)]
  have hlow : ∀ b ∈ upTo c l, b.frame ≤ c := by
    intro b hb
    exact of_decide_eq_true (mem_filter.mp hb).2
  have hhigh : ∀ b ∈ after c l, c < b.frame := by
    intro b hb
    exact of_decide_eq_true (mem_filter.mp hb).2
  unfold getTimeShiftedVersion
  simp only [hframe, hl]
  show finish (l.foldl (timeShiftStep c) _) = _
  rw [← upTo_append_after h c, foldl_append, foldl_timeShiftStep_upTo hlow,
    finish_foldl_timeShiftStep hhigh, upTo_append_after h c]
  rfl

end Cut

/-! ## Splicing back -/

theorem shiftFrame_shiftFrame_neg (b : FrameBlock F) : (b.shiftFrame (-c)).shiftFrame c = b := by
  unfold shiftFrame
  have hf : b.frame + -c + c = b.frame := by omega
  simp only [hf]

/-- The folded block, put on the cut. -/
def onCut (c : Int) (l : List (FrameBlock F)) : FrameBlock F := (folded c l).shiftFrame c

theorem frame_onCut (l : List (FrameBlock F)) : (onCut c l).frame = c := by
  have hf := (foldl_foldStep_fields c ({ frame := 0, parsed := true } : FrameBlock F) (upTo c l)).1
  show (folded c l).frame + c = c
  unfold folded
  rw [hf]
  exact Int.zero_add c

/-- `AddScript` of the shifted script: the blocks before the cut, the folded block, the blocks
after the cut, without the blank ones. (script_parse.cpp:516-541) -/
theorem blocks_addScript_timeShifted {info : PlaybackInfo F}
    (h : info.currentScript.blocks.Pairwise fun a b => a.frame < b.frame) {c : Int} (hc : 0 ≤ c) :
    (info.currentScript.addScript (info.getTimeShiftedVersion c).currentScript c).blocks =
      below frame c info.currentScript.blocks ++
        (onCut c info.currentScript.blocks :: after c info.currentScript.blocks).filter
          fun b => !b.isBlank := by
  have hmap : (after c info.currentScript.blocks).map
      (shiftFrame c ∘ shiftFrame (-c)) = after c info.currentScript.blocks := by
    refine (map_congr_left fun b _ => ?_).trans (map_id _)
    exact shiftFrame_shiftFrame_neg c b
  unfold TASScript.addScript
  show _ ++ _ = _
  rw [(keySorted_of_strict h).takeWhile_eq_below, blocks_getTimeShiftedVersion h rfl hc,
    map_cons, map_map, hmap]
  rfl

section Meaning

variable {l : List (FrameBlock F)} {c : Int} {ν : Type} {value : FrameBlock F → Option ν}

theorem upTo_cons_of_le {f : Int} {b : FrameBlock F} (hb : b.frame ≤ f) :
    upTo f (b :: l) = b :: upTo f l :=
  filter_cons_of_pos (by simpa using hb)

theorem upTo_append (f : Int) (l' : List (FrameBlock F)) :
    upTo f (l ++ l') = upTo f l ++ upTo f l' :=
  filter_append ..

theorem upTo_filter (f : Int) (p : FrameBlock F → Bool) :
    upTo f (l.filter p) = (upTo f l).filter p := by
  unfold upTo
  rw [filter_filter, filter_filter]
  refine filter_congr fun b _ => ?_
  rw [Bool.and_comm]

section

variable (h : l.Pairwise fun a b => a.frame < b.frame)
include h

/-- From the cut on, what is in effect is what the blocks up to the cut left, overwritten by
the later blocks. -/
theorem lastValue_upTo_of_le {f : Int}
    (hf : c ≤ f) :
    lastValue value (upTo f l) =
      (lastValue value (upTo f (after c l))).or (lastValue value (upTo c l)) := by
  have hlow : upTo f (upTo c l) = upTo c l := by
    refine filter_eq_self.mpr fun b hb => ?_
    have hbc : b.frame ≤ c := of_decide_eq_true (mem_filter.mp hb).2
    rw [decide_eq_true_eq]
    omega
  have hsplit : upTo f l = upTo c l ++ upTo f (after c l) := by
    conv_lhs => rw [← upTo_append_after h c]
    rw [upTo_append, hlow]
  rw [hsplit, lastValue_append]

theorem lastValue_below_or :
    (lastValue value (upTo c l)).or (lastValue value (below frame c l)) =
      lastValue value (upTo c l) := by
  have hsplit : upTo c l =
      below frame c l ++ (upTo c l).filter fun b => decide (c ≤ b.frame) := by
    have hlow : below frame c (upTo c l) = below frame c l := by
      unfold upTo
      refine below_filter fun b _ hb => ?_
      rw [decide_eq_true_eq]
      omega
    rw [← hlow]
    exact ((keySorted_of_strict h).sublist filter_sublist).below_append_filter c |>.symm
  rw [hsplit, lastValue_append, Option.or_assoc, Option.or_self]

/-- The spliced script gives every value that blank blocks do not set and that survives the
folding. -/
theorem lastValue_spliced (hblank : ∀ b : FrameBlock F, b.isBlank = true → value b = none)
    (hcut : value (onCut c l) = lastValue value (upTo c l)) (f : Int) :
    lastValue value (upTo f (below frame c l ++
        (onCut c l :: after c l).filter fun b => !b.isBlank)) =
      lastValue value (upTo f l) := by
  have hdrop : ∀ l' : List (FrameBlock F),
      lastValue value (l'.filter fun b => !b.isBlank) = lastValue value l' := by
    intro l'
    apply lastValue_filter
    intro b _ hb
    exact hblank b (by simpa using hb)
  rw [upTo_append, lastValue_append, upTo_filter, hdrop]
  by_cases hf : f < c
  · -- before the cut the spliced part is not in force
    have hnone : upTo f (onCut c l :: after c l) = [] := by
      refine filter_eq_nil_iff.mpr fun b hb => ?_
      have hcb : c ≤ b.frame := by
        rcases mem_cons.mp hb with rfl | hb
        · rw [frame_onCut]
        · exact (of_decide_eq_true (mem_filter.mp hb).2 : c < b.frame).le
      simp only [decide_eq_true_eq]
      omega
    have hlow : upTo f (below frame c l) = upTo f l := by
      unfold upTo below
      rw [filter_filter]
      refine filter_congr fun b _ => ?_
      by_cases hb : b.frame ≤ f
      · have hbc : b.frame < c := by omega
        simp [hb, hbc]
      · simp [hb]
    rw [hnone, hlow, lastValue_nil, Option.none_or]
  · have hcf : c ≤ f := not_lt.mp hf
    have hlow : upTo f (below frame c l) = below frame c l := by
      refine filter_eq_self.mpr fun b hb => ?_
      have hbc : b.frame < c := of_decide_eq_true (mem_filter.mp hb).2
      rw [decide_eq_true_eq]
      omega
    rw [upTo_cons_of_le (by rw [frame_onCut]; exact hcf), lastValue_cons, hcut, hlow,
      Option.or_assoc, lastValue_below_or h, lastValue_upTo_of_le h hcf]

theorem lastValue_shifted
    (hshift : ∀ (d : Int) (b : FrameBlock F), value (b.shiftFrame d) = value b)
    (hcut : value (onCut c l) = lastValue value (upTo c l)) {g : Int} (hg : 0 ≤ g) :
    lastValue value (upTo g (folded c l :: (after c l).map (shiftFrame (-c)))) =
      lastValue value (upTo (c + g) l) := by
  have hframe : (folded c l).frame ≤ g := by
    have hf := frame_onCut c l
    have hsum : (onCut c l).frame = (folded c l).frame + c := rfl
    omega
  have hmap : upTo g ((after c l).map (shiftFrame (-c))) =
      (upTo (c + g) (after c l)).map (shiftFrame (-c)) := by
    unfold upTo
    rw [filter_map]
    congr 1
    refine filter_congr fun b _ => ?_
    show decide (b.frame + -c ≤ g) = _
    rw [decide_eq_decide]
    omega
  have hfold : value (folded c l) = value (onCut c l) := (hshift c (folded c l)).symm
  rw [upTo_cons_of_le hframe, lastValue_cons, hmap, lastValue_map value _ (hshift (-c)), hfold,
    hcut, lastValue_upTo_of_le h (show c ≤ c + g by omega)]

end

theorem commandsAt_upTo (l : List (FrameBlock F)) (c f : Int) :
    commandsAt (upTo c l) f =
      commandsAt (below frame c l) f ++ (if c = f then commandsAt l c else []) := by
  unfold commandsAt upTo below
  rw [filter_filter, filter_filter]
  by_cases hcf : c = f
  · subst hcf
    have hon : l.filter (fun b => decide (b.frame = c) && decide (b.frame ≤ c)) =
        l.filter fun b => decide (b.frame = c) := by
      refine filter_congr fun b _ => ?_
      by_cases hb : b.frame = c
      · simp [hb]
      · simp [hb]
    have hbefore : l.filter (fun b => decide (b.frame = c) && decide (b.frame < c)) = [] := by
      refine filter_eq_nil_iff.mpr fun b _ => ?_
      simp only [Bool.and_eq_true, decide_eq_true_eq, not_and]
      omega
    rw [hon, hbefore, if_pos rfl]
    rfl
  · rw [if_neg hcf, append_nil]
    congr 1
    refine filter_congr fun b _ => ?_
    by_cases hb : b.frame = f
    · have hiff : b.frame ≤ c ↔ b.frame < c := by omega
      simp [hb, hb ▸ hiff]
    · simp [hb]

theorem commandsAt_spliced (h : l.Pairwise fun a b => a.frame < b.frame) (f : Int) :
    commandsAt (below frame c l ++
        (onCut c l :: after c l).filter fun b => !b.isBlank) f = commandsAt l f := by
  have hcmd : (onCut c l).commands = commandsAt l c := commands_folded h c
  have hsplit : commandsAt l f = commandsAt (upTo c l) f ++ commandsAt (after c l) f := by
    rw [← commandsAt_append, upTo_append_after h c]
  rw [commandsAt_append, commandsAt_filter_isBlank, commandsAt_cons, hsplit, commandsAt_upTo,
    append_assoc, frame_onCut, hcmd]

end Meaning

theorem find?_convars_onCut (l : List (FrameBlock F)) {name : Str} (hn : name ≠ str "skill") :
    (onCut c l).convars.find? name = lastValue (fun b => b.convars.find? name) (upTo c l) := by
  have hfields := foldl_foldStep_fields c ({ frame := 0, parsed := true } : FrameBlock F) (upTo c l)
  show (folded c l).convars.find? name = _
  unfold folded
  rw [hfields.2.1, find?_convars_stackAll _ _ hn]
  exact Option.or_none

theorem find?_toggles_onCut (l : List (FrameBlock F)) (name : Str) :
    (onCut c l).toggles.find? name = lastValue (fun b => b.toggles.find? name) (upTo c l) := by
  have hfields := foldl_foldStep_fields c ({ frame := 0, parsed := true } : FrameBlock F) (upTo c l)
  show (folded c l).toggles.find? name = _
  unfold folded
  rw [hfields.2.2, find?_toggles_stackAll]
  exact Option.or_none

theorem find?_eq_none_of_isBlank {b : FrameBlock F} (h : b.isBlank = true) (name : Str) :
    b.convars.find? name = none ∧ b.toggles.find? name = none := by
  unfold isBlank at h
  simp only [Bool.and_eq_true, OrderedMap.isEmpty_iff] at h
  rw [h.1.1, h.2]
  exact ⟨rfl, rfl⟩

/-- **Cutting a script at a frame and splicing it back preserves its meaning**, and the cut
script means on its own what the original means from the cut on.
(libtasquake/src/script_playback.cpp:68-106, script_parse.cpp:516-541) -/
theorem cut_and_splice_preserves_meaning (info : PlaybackInfo F) (c : Int)
    (h : info.currentScript.blocks.Pairwise fun a b => a.frame < b.frame) (hc : 0 ≤ c) :
    let s := info.currentScript
    let t := (info.getTimeShiftedVersion c).currentScript
    let s' := s.addScript t c
    (∀ f, commandsAt s'.blocks f = commandsAt s.blocks f) ∧
    (∀ f name, name ≠ str "skill" →
      effectiveConvar s'.blocks f name = effectiveConvar s.blocks f name) ∧
    (∀ f name, effectiveToggle s'.blocks f name = effectiveToggle s.blocks f name) ∧
    (∀ g, 0 ≤ g →
      (∀ name, name ≠ str "skill" →
        effectiveConvar t.blocks g name = effectiveConvar s.blocks (c + g) name) ∧
      ∀ name, effectiveToggle t.blocks g name = effectiveToggle s.blocks (c + g) name) := by
  simp only
  unfold effectiveConvar effectiveToggle
  rw [blocks_addScript_timeShifted h hc, blocks_getTimeShiftedVersion h rfl hc]
  refine ⟨?_, ?_, ?_, ?_⟩
  · intro f
    exact commandsAt_spliced h f
  · intro f name hn
    exact lastValue_spliced h (fun b hb => (find?_eq_none_of_isBlank hb name).1)
      (find?_convars_onCut c _ hn) f
  · intro f name
    exact lastValue_spliced h (fun b hb => (find?_eq_none_of_isBlank hb name).2)
      (find?_toggles_onCut c _ name) f
  · intro g hg
    refine ⟨?_, ?_⟩
    · intro name hn
      exact lastValue_shifted h (fun _ _ => rfl) (find?_convars_onCut c _ hn) hg
    · intro name
      exact lastValue_shifted h (fun _ _ => rfl) (find?_toggles_onCut c _ name) hg

/-- A script with a block before, on and after the cut at frame 5. -/
def cutExample : PlaybackInfo Int :=
  { currentScript :=
      { blocks :=
          [{ frame := 2, toggles := empty.put (str "jump") true },
            { frame := 5, convars := empty.put (str "tas_strafe_yaw") 90,
              commands := [str "impulse 3"] },
            { frame := 9, toggles := empty.put (str "jump") false }] } }

/-- Cut at frame 5, four frames later: the jump is released there as in the original. -/
theorem cut_and_splice_preserves_meaning_example :
    effectiveToggle (cutExample.getTimeShiftedVersion 5).currentScript.blocks 4 (str "jump") =
        some false ∧
      effectiveToggle (cutExample.getTimeShiftedVersion 5).currentScript.blocks 4 (str "jump") =
        effectiveToggle cutExample.currentScript.blocks (5 + 4) (str "jump") := by
  refine ⟨by decide, ?_⟩
  exact ((cut_and_splice_preserves_meaning cutExample 5 (by decide) (by decide)).2.2.2 4
    (by decide)).2 (str "jump")

end TASQuake.Analysis.TimeShift
