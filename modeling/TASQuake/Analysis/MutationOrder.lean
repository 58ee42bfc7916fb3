import TASQuake.Analysis.RandomIntegers
import TASQuake.Analysis.ScriptOrder
import TASQuake.Interface.RationalArith
import TASQuake.Model.Mutators

/-!
# The optimizer's mutations and the order of the script

Five of the six algorithms keep the frames of a script non-negative and non-decreasing whatever is
drawn.  `RNGBlockMover` also writes a frame directly, which lies between the neighbours of the block
except for the last block when the one before it lies past the end of the window: then the bounds
are inverted.
-/

namespace TASQuake.Analysis.MutationOrder

open Lib TASScript TurnOptimizer Algorithm FrameBlock Nat List

variable {F R : Type}

/-! ## Looking for a block -/

variable {n : ℕ}

theorem nextProbe_up {p : ℕ} (h : p < n) : nextProbe n 1 p = (p + 1) % n := by
  unfold nextProbe modulo
  rw [if_neg (by omega)]
  split
  · next heq =>
    have hn : p + 1 = n := by omega
    rw [hn, mod_self]
    rfl
  · next hne =>
    rw [mod_eq_of_lt (by omega)]
    omega

theorem nextProbe_down {p : ℕ} (h : p < n) : nextProbe n (-1) p = (p + (n - 1)) % n := by
  unfold nextProbe modulo
  split
  · next heq =>
    have hp : p = 0 := by omega
    subst hp
    rw [zero_add, mod_eq_of_lt (by omega)]
    omega
  · next hne =>
    rw [if_neg (by omega), show p + (n - 1) = p - 1 + n by omega, add_mod_right,
      mod_eq_of_lt (by omega)]
    omega

theorem probeDirection_eq (up : Bool) :
    (if up = true then (1 : Int) else -1) = 1 ∨ (if up = true then (1 : Int) else -1) = -1 := by
  cases up
  · exact .inr rfl
  · exact .inl rfl

theorem nextProbe_round {a : ℕ} {direction : Int} (hd : direction = 1 ∨ direction = -1) (ha : a < n) :
    (nextProbe n direction)^[n] a = a ∧ (∀ k, (nextProbe n direction)^[k] a < n) ∧
      ∀ j < n, ∃ k, (nextProbe n direction)^[k] a = j := by
  have hlt : ∀ d p, p < n → (p + d) % n < n := fun d p hp => mod_lt _ (by omega)
  rcases hd with rfl | rfl
  · have heq := iterate_congr_lt (fun p hp => nextProbe_up hp) (hlt 1) ha
    refine ⟨?_, fun k => ?_, fun j hj => ?_⟩
    · rw [(heq n).1, iterate_add_mod_self 1 ha]
    · rw [(heq k).1]
      exact (heq k).2
    · obtain ⟨k, -, hk⟩ := exists_iterate_up ha hj
      exact ⟨k, (heq k).1.trans hk⟩
  · have heq := iterate_congr_lt (fun p hp => nextProbe_down hp) (hlt (n - 1)) ha
    refine ⟨?_, fun k => ?_, fun j hj => ?_⟩
    · rw [(heq n).1, iterate_add_mod_self (n - 1) ha]
    · rw [(heq k).1]
      exact (heq k).2
    · obtain ⟨k, -, hk⟩ := exists_iterate_down ha hj
      exact ⟨k, (heq k).1.trans hk⟩

variable (ops : MutatorArith F R)

theorem findSuitableBlock_congr [LinearOrder R] {p q : TASScript F → ℕ → Bool}
    {script : TASScript F} (h : ∀ i < script.blocks.length, p script i = q script i) (rng : Draws) :
    findSuitableBlock ops p script rng = findSuitableBlock ops q script rng := by
  unfold findSuitableBlock
  dsimp only
  by_cases hzero : script.blocks.length = 0
  · rw [if_pos hzero, if_pos hzero]
  · have hindex : (draw rng).1 % script.blocks.length < script.blocks.length :=
      mod_lt _ (pos_of_ne_zero hzero)
    have hround : ∀ direction : Int, direction = 1 ∨ direction = -1 →
        searchRound (p script) (nextProbe script.blocks.length direction) script.blocks.length
            ((draw rng).1 % script.blocks.length) =
          searchRound (q script) (nextProbe script.blocks.length direction) script.blocks.length
            ((draw rng).1 % script.blocks.length) := by
      intro direction hd
      obtain ⟨-, hrange, -⟩ := nextProbe_round hd hindex
      exact searchRound_congr fun k => h _ (hrange k)
    rw [if_neg hzero, if_neg hzero, h _ hindex]
    split
    · rfl
    · split
      · rw [hround 1 (.inl rfl)]
      · rw [hround (-1) (.inr rfl)]

theorem findSuitableBlock_spec [LinearOrder R] (predicate : TASScript F → ℕ → Bool)
    (script : TASScript F) (rng : Draws) :
    ∃ found rng', findSuitableBlock ops predicate script rng = some (found, rng') ∧
      (∀ i, found = some i → i < script.blocks.length ∧ predicate script i = true) ∧
      (found = none → ∀ i < script.blocks.length, predicate script i = false) := by
  unfold findSuitableBlock
  simp only
  split
  · next hzero =>
    exact ⟨none, rng, rfl, fun i hi => (nomatch hi), fun _ i hi => absurd hi (by omega)⟩
  · next hpos =>
    have hindex : (draw rng).1 % script.blocks.length < script.blocks.length :=
      mod_lt _ (pos_of_ne_zero hpos)
    generalize (draw rng).1 % script.blocks.length = index at hindex ⊢
    split
    · next hpred =>
      refine ⟨some index, _, rfl, ?_, fun h => (nomatch h)⟩
      intro i hi
      cases hi
      exact ⟨hindex, hpred⟩
    · next hpred =>
      generalize ops.randomAbove (ops.frac 1 2) (draw rng).2 = coin
      obtain ⟨up, rng'⟩ := coin
      have hd := probeDirection_eq up
      generalize (if up = true then (1 : Int) else -1) = direction at hd
      obtain ⟨hperiod, hrange, hall⟩ := nextProbe_round hd hindex
      obtain ⟨r, hr⟩ : ∃ r, searchRound (predicate script)
          (nextProbe script.blocks.length direction) script.blocks.length index = some r :=
        exists_searchRound_eq_some (pos_of_ne_zero hpos) hperiod
      obtain ⟨m, -, hm⟩ := searchRound_mem hr
      refine ⟨if r = index then none else some r, rng', by simp [hr], ?_, ?_⟩
      · intro i hi
        split at hi
        · cases hi
        · next hne =>
          cases hi
          exact ⟨hm ▸ hrange m, pred_of_searchRound_ne hr hne⟩
      · intro hnone i hi
        split at hnone
        · next heq =>
          obtain ⟨k, hk⟩ := hall i hi
          -- a block with the property would have been found
          by_contra htrue
          have hfound := pred_of_searchRound hr (k := k) (by
            rw [hk]
            simpa using htrue)
          rw [heq] at hfound
          exact hpred hfound
        · cases hnone

theorem movableBlock_last (script : TASScript F) :
    movableBlock script (script.blocks.length - 1) = true := by
  unfold movableBlock
  simp only [if_true]

theorem findSuitableBlock_movable [LinearOrder R] {script : TASScript F} (hne : script.blocks ≠ [])
    (rng : Draws) :
    ∃ i rng', findSuitableBlock ops movableBlock script rng = some (some i, rng') ∧
      i < script.blocks.length ∧ movableBlock script i = true := by
  obtain ⟨found, rng', heq, hsome, hnone⟩ := findSuitableBlock_spec ops movableBlock script rng
  cases found with
  | some i => exact ⟨i, rng', heq, hsome i rfl⟩
  | none =>
    have hpos := length_pos_iff.mpr hne
    have hfalse := hnone rfl (script.blocks.length - 1) (by omega)
    rw [movableBlock_last] at hfalse
    cases hfalse

/-- The indices on which `FindSuitableBlock` evaluates the predicate. -/
def evaluatedOn [LinearOrder R] (predicate : TASScript F → ℕ → Bool) (script : TASScript F)
    (rng : Draws) : List ℕ :=
  let size := script.blocks.length
  if size = 0 then []
  else
    let (r, rng) := draw rng
    let index := r % size
    index :: if predicate script index then []
      else
        let probeDirection := if (ops.randomAbove (ops.frac 1 2) rng).1 then 1 else -1
        tested (fun p => predicate script p || decide (p = index)) (nextProbe size probeDirection)
          size (nextProbe size probeDirection index)

theorem lt_of_mem_evaluatedOn [LinearOrder R] {predicate : TASScript F → ℕ → Bool}
    {script : TASScript F} {rng : Draws} {i : ℕ} (h : i ∈ evaluatedOn ops predicate script rng) :
    i < script.blocks.length := by
  unfold evaluatedOn at h
  dsimp only at h
  split at h
  · cases h
  · next hpos =>
    have hindex : (draw rng).1 % script.blocks.length < script.blocks.length :=
      mod_lt _ (pos_of_ne_zero hpos)
    rcases mem_cons.mp h with rfl | h
    · exact hindex
    · split at h
      · cases h
      · obtain ⟨k, hk⟩ := exists_iterate_of_mem_tested h
        obtain ⟨-, hrange, -⟩ := nextProbe_round (probeDirection_eq _) hindex
        exact hk ▸ hrange (k + 1)

/-- **`FindSuitableBlock` is a complete search**, whatever is drawn: it returns, it evaluates the
predicate on blocks of the script only, and it finds a block with the property if there is one.  A
block that can move is found unless the script is empty. -/
theorem find_suitable_block_complete [LinearOrder R] (script : TASScript F) (rng : Draws) :
    (∀ predicate : TASScript F → ℕ → Bool,
      (∀ i ∈ evaluatedOn ops predicate script rng, i < script.blocks.length) ∧
        ∃ found rng', findSuitableBlock ops predicate script rng = some (found, rng') ∧
          (∀ i, found = some i → i < script.blocks.length ∧ predicate script i = true) ∧
          (found = none ↔ ∀ i < script.blocks.length, predicate script i = false)) ∧
      (script.blocks ≠ [] → ∃ i rng',
        findSuitableBlock ops movableBlock script rng = some (some i, rng') ∧
          i < script.blocks.length ∧ movableBlock script i = true) := by
  refine ⟨fun predicate => ⟨fun i hi => lt_of_mem_evaluatedOn ops hi, ?_⟩,
    fun hne => findSuitableBlock_movable ops hne rng⟩
  obtain ⟨found, rng', hfind, hsome, hnone⟩ := findSuitableBlock_spec ops predicate script rng
  refine ⟨found, rng', hfind, hsome, hnone, fun hall => ?_⟩
  cases found with
  | none => rfl
  | some i =>
    obtain ⟨hi, htrue⟩ := hsome i rfl
    rw [hall i hi] at htrue
    cases htrue

/-! ## What a change of the script preserves -/

/-- The order is kept and no block is lost. -/
structure Preserves (s t : TASScript F) : Prop where
  ordered : s.WellOrdered → t.WellOrdered
  length_le : s.blocks.length ≤ t.blocks.length

namespace Preserves

variable (s : TASScript F)

theorem refl : Preserves s s := ⟨id, le_rfl⟩

theorem trans {s t u : TASScript F} (h : Preserves s t) (h' : Preserves t u) : Preserves s u :=
  ⟨fun ho => h'.ordered (h.ordered ho), h.length_le.trans h'.length_le⟩

theorem modifyBlock (i : ℕ) {f : FrameBlock F → FrameBlock F} (hf : ∀ b, (f b).frame = b.frame) :
    Preserves s (s.modifyBlock i f) :=
  ⟨fun h => wellOrdered_modifyBlock h i hf, (length_modify f s.blocks i).ge⟩

theorem shiftBlocks (i : ℕ) (delta : Int) : Preserves s (s.shiftBlocks i delta).1 := by
  refine ⟨fun h => wellOrdered_shiftBlocks h i delta, ?_⟩
  unfold TASScript.shiftBlocks
  split
  · exact le_rfl
  · simp only
    split
    · exact le_rfl
    · simp only [length_append, length_take, length_map, length_drop]
      omega

theorem removeTogglesFromRange (name : Str) (lo hi : Int) :
    Preserves s (s.removeTogglesFromRange name lo hi) :=
  ⟨fun h => wellOrdered_removeTogglesFromRange h name lo hi, (length_map _).ge⟩

theorem addToggle (cmd : Str) (state : Bool) {frame : Int} (hf : 0 ≤ frame) :
    Preserves s (s.addToggle cmd state frame) := by
  refine ⟨fun h => wellOrdered_addToggle h cmd state hf, ?_⟩
  show s.blocks.length ≤ ((s.getBlockForInsertion frame).1.blocks.modify _ _).length
  rw [length_modify]
  rcases s.getBlockForInsertion_cases frame with ⟨b, -, -, heq⟩ | ⟨-, heq⟩
  · rw [heq]
  · rw [heq]
    exact length_le_length_insertIdx

end Preserves

/-! ## The algorithms that do not write frames -/

variable {i : ℕ}

theorem writeStrafeYaw_spec (s : TASScript F) (hi : i < s.blocks.length) (value : R) :
    ∃ t, writeStrafeYaw ops s i value = some t ∧ Preserves s t := by
  unfold writeStrafeYaw
  rw [getElem?_eq_getElem hi]
  exact ⟨_, rfl, Preserves.modifyBlock s i fun _ => rfl⟩

theorem readStrafeYaw_spec (s : TASScript F) (hi : i < s.blocks.length) :
    ∃ yaw t, readStrafeYaw ops s i = some (yaw, t) ∧ Preserves s t := by
  unfold readStrafeYaw
  rw [getElem?_eq_getElem hi]
  exact ⟨_, _, rfl, Preserves.modifyBlock s i fun _ => rfl⟩

theorem rngShooterMutate_preserves (s : TASScript F) (lastFrame : Int) (rng : Draws) :
    Preserves s (rngShooterMutate s lastFrame rng).1 := by
  unfold rngShooterMutate
  simp only
  have hcleared := Preserves.removeTogglesFromRange s (str "attack") 0 lastFrame
  split
  · exact hcleared
  · next integers rest heq =>
    have hfold : ∀ (frames : List Int) (t : TASScript F), (∀ x ∈ frames, 0 ≤ x) → Preserves t
        (frames.foldl (fun script frame =>
          (script.addToggle (str "attack") true frame).addToggle (str "attack") false (frame + 1))
          t) := by
      intro frames
      induction frames with
      | nil => exact fun t _ => Preserves.refl t
      | cons frame frames ih =>
        intro t hframes
        have hframe := hframes frame mem_cons_self
        exact ((Preserves.addToggle t _ true hframe).trans
          (Preserves.addToggle _ _ false (by omega))).trans
            (ih _ fun x hx => hframes x (mem_cons_of_mem _ hx))
    exact (hcleared.trans (Preserves.removeTogglesFromRange _ _ 0 lastFrame)).trans
      (hfold integers _ (le_of_mem_generateRandomIntegers (by decide) heq))

variable {s : TASScript F}

theorem rngStraferMutate_spec [LinearOrder R] (hne : s.blocks ≠ []) (rng : Draws) :
    ∃ t rng', rngStraferMutate ops s rng = some (t, rng') ∧ Preserves s t := by
  have hpos := length_pos_iff.mpr hne
  have hindex : (draw rng).1 % s.blocks.length < s.blocks.length := mod_lt _ hpos
  unfold rngStraferMutate
  rw [if_neg (by omega)]
  simp only [getElem?_eq_getElem hindex, some_bind]
  obtain ⟨t, ht, hpres⟩ := writeStrafeYaw_spec ops s hindex _
  rw [ht]
  exact ⟨t, _, rfl, hpres⟩

/-! ### Indices kept between two calls -/

/-- The block index that a roller keeps is one of the first `n`. -/
def RollerValid (n : ℕ) (self : BlockRoller R) : Prop :=
  ∀ i, self.currentBlockIndex = some i → i < n

theorem rollerValid_some (hi : i < n) (stone : RollingStone R) : RollerValid n ⟨some i, stone⟩ := by
  intro j hj
  cases hj
  exact hi

variable {self : BlockRoller R}

theorem writeStone_spec [LinearOrder R] (hi : i < s.blocks.length) (rng : Draws)
    (hself : RollerValid s.blocks.length self) :
    ∃ self' t rng', writeStone ops self i s rng = some (self', t, rng') ∧ Preserves s t ∧
      RollerValid t.blocks.length self' := by
  obtain ⟨t, ht, hpres⟩ := writeStrafeYaw_spec ops s hi (ops.normalizeDeg self.stone.currentValue)
  unfold writeStone
  rw [ht]
  exact ⟨self, t, rng, rfl, hpres, fun j hj => (hself j hj).trans_le hpres.length_le⟩

theorem strafeAdjusterMutate_spec [LinearOrder R] [BEq F] (beyond : ℕ → FrameData R)
    (hself : RollerValid s.blocks.length self) (vecData : List (FrameData R)) (efficacy : R)
    (rng : Draws) :
    ∃ self' t rng', strafeAdjusterMutate ops beyond self s vecData efficacy rng =
        some (self', t, rng') ∧ Preserves s t ∧ RollerValid t.blocks.length self' := by
  unfold strafeAdjusterMutate
  cases hcur : self.currentBlockIndex with
  | some i => exact writeStone_spec ops (hself i hcur) rng hself
  | none =>
    have hidle : ∀ n, RollerValid n self := fun n j hj => by
      rw [hcur] at hj
      cases hj
    obtain ⟨found, rng', hfind, hsome, -⟩ := findSuitableBlock_spec ops hasStrafeYaw s rng
    simp only [hfind, Option.bind_eq_bind, Option.bind_some]
    cases found with
    | none => exact ⟨self, s, rng', rfl, Preserves.refl s, hself⟩
    | some i =>
      obtain ⟨hi, -⟩ := hsome i rfl
      obtain ⟨yaw, t, hread, hpres⟩ := readStrafeYaw_spec ops s hi
      have hit := hi.trans_le hpres.length_le
      simp only [hread, Option.bind_some, getElem?_eq_getElem hit]
      split
      · exact ⟨self, t, _, rfl, hpres, hidle _⟩
      · obtain ⟨self', u, rng'', heq, hpres', hvalid⟩ := writeStone_spec ops hit _
          (rollerValid_some hit _)
        exact ⟨self', u, rng'', heq, hpres.trans hpres', hvalid⟩

theorem rollBlock_spec (hi : i < s.blocks.length) (rng : Draws)
    (hself : RollerValid s.blocks.length self) :
    ∃ self' t rng', rollBlock ops self i s rng = some (self', t, rng') ∧ Preserves s t ∧
      RollerValid t.blocks.length self' := by
  unfold rollBlock
  simp only [getElem?_eq_getElem hi, some_bind]
  have hpres := Preserves.shiftBlocks s i
    (ops.trunc (ops.sub self.stone.currentValue (ops.ofInt s.blocks[i].frame)))
  exact ⟨self, _, rng, rfl, hpres, fun j hj => (hself j hj).trans_le hpres.length_le⟩

theorem frameBlockMoverMutate_spec [LinearOrder R] (hself : RollerValid s.blocks.length self)
    (lastFrame : Int) (efficacy : R) (rng : Draws) :
    ∃ self' t rng', frameBlockMoverMutate ops self s lastFrame efficacy rng =
        some (self', t, rng') ∧ Preserves s t ∧ RollerValid t.blocks.length self' := by
  unfold frameBlockMoverMutate
  split
  · exact ⟨self, s, rng, rfl, Preserves.refl s, hself⟩
  · next hpos =>
    cases hcur : self.currentBlockIndex with
    | some i => exact rollBlock_spec ops (hself i hcur) rng hself
    | none =>
      have hne : s.blocks ≠ [] := fun h => hpos (by rw [h]; rfl)
      obtain ⟨i, rng', hfind, hi, -⟩ := findSuitableBlock_movable ops hne rng
      simp only [hfind, some_bind, getElem?_eq_getElem hi]
      split
      · exact ⟨_, s, _, rfl, Preserves.refl s, rollerValid_some hi _⟩
      · exact rollBlock_spec ops hi _ (rollerValid_some hi _)

/-! ### The turn optimizer -/

/-- Between two calls of a search the strafe block is one of the first `n`. -/
def TurnValid (n : ℕ) (self : TurnOptimizer F R) : Prop :=
  ∀ i, self.turnIndex = some i → ∃ j, self.strafeIndex = some j ∧ j < n

theorem findStrafeBlock_le (s : TASScript F) (turn : ℕ) :
    findStrafeBlock s turn ≤ turn := by
  unfold findStrafeBlock
  cases hfind : (range turn).reverse.find? (hasStrafeYaw s) with
  | none => exact le_rfl
  | some i =>
    have hmem := mem_of_find?_eq_some hfind
    rw [mem_reverse, mem_range] at hmem
    exact hmem.le

theorem initTurn_spec [LinearOrder R] (self : TurnOptimizer F R) {turn : ℕ}
    (hturn : turn < s.blocks.length) (rng : Draws) :
    ∃ self' t rng', self.initTurn ops s turn rng = some (self', t, rng') ∧ Preserves s t ∧
      TurnValid t.blocks.length self' ∧ self'.searcher = self.searcher ∧
      ∀ i, self'.turnIndex = some i → i = turn := by
  unfold initTurn
  simp only
  generalize ops.randomAbove (ops.frac 1 4) rng = coin
  obtain ⟨previous, rng⟩ := coin
  generalize ops.randomAbove (ops.frac 1 2) rng = coin
  obtain ⟨up, rng⟩ := coin
  have hstrafe : (if previous = true then findStrafeBlock s turn else turn) <
      s.blocks.length := by
    split
    · exact (findStrafeBlock_le s turn).trans_lt hturn
    · exact hturn
  generalize (if previous = true then findStrafeBlock s turn else turn) = strafe
    at hstrafe
  have hshift := Preserves.shiftBlocks s turn (if up = true then 1 else -1)
  generalize s.shiftBlocks turn (if up = true then 1 else -1) = shifted at hshift
  obtain ⟨t, moved⟩ := shifted
  dsimp only at hshift ⊢
  cases moved with
  | false =>
    exact ⟨_, t, rng, rfl, hshift, fun i hi => (nomatch hi), rfl, fun i hi => (nomatch hi)⟩
  | true =>
    obtain ⟨yaw, u, hread, hpres⟩ := readStrafeYaw_spec ops t (hstrafe.trans_le hshift.length_le)
    simp only [Bool.not_true, Bool.false_eq_true, if_false, hread, some_bind]
    refine ⟨_, u, _, rfl, hshift.trans hpres, fun i _ => ⟨strafe, rfl, ?_⟩, rfl, fun i hi => ?_⟩
    · exact hstrafe.trans_le (hshift.trans hpres).length_le
    · exact (Option.some.inj hi).symm

/-- A search that has begun has been told the result of its first iteration. -/
def TurnReady (self : TurnOptimizer F R) : Prop :=
  self.turnIndex ≠ none → self.searcher.state ≠ .noSearch

theorem turnMutate_spec [LinearOrder R] {self : TurnOptimizer F R}
    (hself : TurnValid s.blocks.length self) (hready : TurnReady self) (rng : Draws) :
    ∃ self' t rng', self.mutate ops s rng = some (self', t, rng') ∧ Preserves s t ∧
      TurnValid t.blocks.length self' := by
  unfold TurnOptimizer.mutate
  cases hcur : self.turnIndex with
  | none =>
    obtain ⟨found, rng', hfind, hsome, -⟩ :=
      findSuitableBlock_spec ops isTurnFrameBlock s rng
    simp only [init, hfind, some_bind]
    cases found with
    | none => exact ⟨self, s, rng', rfl, Preserves.refl s, hself⟩
    | some turn =>
      obtain ⟨self', t, rng'', heq, hpres, hvalid, -⟩ :=
        initTurn_spec ops self (hsome turn rfl).1 rng'
      exact ⟨self', t, rng'', heq, hpres, hvalid⟩
  | some turn =>
    obtain ⟨strafe, hstrafe, hlt⟩ := hself turn hcur
    have hstate := hready (by simp [hcur])
    obtain ⟨value, hvalue⟩ : ∃ value, self.searcher.getValue ops = some value := by
      unfold BinSearcher.getValue
      split
      · next heq => exact absurd heq hstate
      · split
        · exact ⟨_, rfl⟩
        · exact ⟨_, rfl⟩
      · exact ⟨_, rfl⟩
      · exact ⟨_, rfl⟩
    obtain ⟨t, ht, hpres⟩ := writeStrafeYaw_spec ops s hlt (ops.normalizeDeg value)
    simp only [hvalue, hstrafe, ht, some_bind]
    refine ⟨self, t, rng, rfl, hpres, fun i hi => ?_⟩
    exact ⟨strafe, hstrafe, hlt.trans_le hpres.length_le⟩

theorem turnMutate_eq_none [LinearOrder R] {self : TurnOptimizer F R} (hready : ¬ TurnReady self)
    (s : TASScript F) (rng : Draws) : self.mutate ops s rng = none := by
  unfold TurnReady at hready
  push Not at hready
  obtain ⟨hcur, hstate⟩ := hready
  obtain ⟨turn, hturn⟩ := Option.ne_none_iff_exists'.mp hcur
  unfold TurnOptimizer.mutate BinSearcher.getValue
  rw [hturn, hstate]
  rfl

/-! ## The algorithm that writes a frame -/

theorem frameAt_eq (hi : i < s.blocks.length) : s.frameAt i = s.blocks[i].frame := by
  unfold TASScript.frameAt
  rw [getElem?_eq_getElem hi]
  rfl

theorem minValue_eq (s : TASScript F) (i : ℕ) :
    s.minValue i = if i = 0 then 0 else s.frameAt (i - 1) := rfl

theorem frameAt_le (h : s.WellOrdered) {j : ℕ} (hij : i ≤ j) (hj : j < s.blocks.length) :
    s.frameAt i ≤ s.frameAt j := by
  rw [frameAt_eq hj, frameAt_eq (hij.trans_lt hj)]
  exact h.sorted.getElem_le hij hj

theorem frameAt_nonneg (h : s.WellOrdered) (hi : i < s.blocks.length) : 0 ≤ s.frameAt i := by
  rw [frameAt_eq hi]
  exact h.nonneg _ (getElem_mem hi)

/-- The last block but one does not lie past the end of the window. -/
def Inside (s : TASScript F) (lastFrame : Int) : Prop :=
  2 ≤ s.blocks.length → s.frameAt (s.blocks.length - 2) ≤ lastFrame

instance (s : TASScript F) (lastFrame : Int) : Decidable (Inside s lastFrame) :=
  inferInstanceAs (Decidable (_ → _))

variable {lastFrame : Int}

theorem chooseFrame_between {ops : MutatorArith F R} (hops : ops.RandomInRange) (h : s.WellOrdered)
    (hi : i < s.blocks.length) (hm : movableBlock s i = true) (hlast : 1 ≤ lastFrame)
    (hinside : Inside s lastFrame) (rng : Draws) :
    s.minValue i ≤ (chooseFrame ops (findBlockMinmax s (lastFrame - 1) i).1
        (findBlockMinmax s (lastFrame - 1) i).2 (s.frameAt i) rng).1 ∧
      (i + 1 < s.blocks.length → (chooseFrame ops (findBlockMinmax s (lastFrame - 1) i).1
        (findBlockMinmax s (lastFrame - 1) i).2 (s.frameAt i) rng).1 ≤ s.frameAt (i + 1)) := by
  unfold chooseFrame
  simp only
  obtain ⟨hlow, hhigh⟩ := hops (findBlockMinmax s (lastFrame - 1) i).1
    ((findBlockMinmax s (lastFrame - 1) i).2 + 1) rng
  generalize ops.trunc (ops.random _ _ rng).1 = result at hlow hhigh ⊢
  have hframe := frameAt_nonneg h hi
  have hprev : 0 < i → 0 ≤ s.frameAt (i - 1) ∧ s.frameAt (i - 1) ≤ s.frameAt i := fun _ =>
    ⟨frameAt_nonneg h (by omega), frameAt_le h (by omega) hi⟩
  have hnext : i + 1 < s.blocks.length → s.frameAt i ≤ s.frameAt (i + 1) := fun hj =>
    frameAt_le h (by omega) hj
  rw [minValue_eq]
  unfold findBlockMinmax at hlow hhigh ⊢
  unfold movableBlock at hm
  simp only at hlow hhigh hm ⊢
  by_cases hend : i = s.blocks.length - 1
  · -- the last block: its lower bound may be above its upper bound
    rw [if_pos hend] at hlow hhigh ⊢
    have hbefore : 0 < i → s.frameAt (i - 1) ≤ lastFrame := fun hpos => by
      have hle := hinside (by omega)
      rwa [show s.blocks.length - 2 = i - 1 by omega] at hle
    refine ⟨?_, fun hj => by omega⟩
    by_cases hzero : i = 0
    · rw [if_pos hzero] at hlow hhigh ⊢
      split <;> omega
    · have hp := hprev (pos_of_ne_zero hzero)
      have hb := hbefore (pos_of_ne_zero hzero)
      rw [if_neg hzero] at hlow hhigh ⊢
      split <;> omega
  · -- a block that can move has a free frame on one side
    have hj : i + 1 < s.blocks.length := by omega
    have hn := hnext hj
    rw [if_neg hend] at hlow hhigh hm ⊢
    by_cases hzero : i = 0
    · rw [if_pos hzero] at hlow hhigh ⊢
      have hfree : s.frameAt i + 1 < s.frameAt (i + 1) := by
        by_contra hfull
        rw [if_neg hfull, if_neg (by omega)] at hm
        cases hm
      constructor
      · split <;> omega
      · intro _
        split <;> omega
    · have hp := hprev (pos_of_ne_zero hzero)
      rw [if_neg hzero] at hlow hhigh ⊢
      have hfree : s.frameAt i + 1 < s.frameAt (i + 1) ∨ s.frameAt (i - 1) < s.frameAt i - 1 := by
        by_contra hfull
        push Not at hfull
        rw [if_neg (by omega), if_neg (by omega)] at hm
        cases hm
      constructor
      · split <;> omega
      · intro _
        split <;> omega

theorem rngBlockMoverMutate_spec [LinearOrder R] (hne : s.blocks ≠ []) (lastFrame : Int)
    (rng : Draws) :
    ∃ t rng', rngBlockMoverMutate ops s lastFrame rng = some (t, rng') ∧
      s.blocks.length ≤ t.blocks.length ∧
      (ops.RandomInRange → s.WellOrdered → 1 ≤ lastFrame → Inside s lastFrame →
        t.WellOrdered) := by
  obtain ⟨i, rng', hfind, hi, hm⟩ := findSuitableBlock_movable ops hne rng
  unfold rngBlockMoverMutate
  simp only [hfind, some_bind, getElem?_eq_getElem hi]
  split
  · have hpres := fun delta => Preserves.shiftBlocks s i delta
    exact ⟨_, _, rfl, (hpres _).length_le, fun _ h _ _ => (hpres _).ordered h⟩
  · refine ⟨_, _, rfl, (length_modify _ s.blocks i).ge, fun hops h hlast hinside => ?_⟩
    obtain ⟨hlow, hhigh⟩ := chooseFrame_between hops h hi hm hlast hinside rng'
    rw [frameAt_eq hi] at hlow hhigh
    refine wellOrdered_moveBlock h hi hlow fun hj => ?_
    rw [← frameAt_eq hj]
    exact hhigh hj

/-- The condition is needed: past the window some outcome puts the last block before the one
in front of it. -/
theorem exists_unordered_outcome [LinearOrder R] {ops : MutatorArith F R}
    (hops : ops.RandomReachesEnds) (h : s.WellOrdered) (hlast : 1 ≤ lastFrame)
    (houtside : ¬ Inside s lastFrame) :
    ∃ rng t rng', rngBlockMoverMutate ops s lastFrame rng = some (t, rng') ∧ ¬ t.WellOrdered := by
  unfold Inside at houtside
  push Not at houtside
  obtain ⟨htwo, hpast⟩ := houtside
  obtain ⟨top, htop⟩ := hops.reachesHigh
  obtain ⟨bottom, hbottom⟩ := hops.reachesLowHalf
  obtain ⟨i, hi⟩ : ∃ i, i + 2 = s.blocks.length := ⟨s.blocks.length - 2, by omega⟩
  have hend : i + 1 = s.blocks.length - 1 := by omega
  have hlt : i + 1 < s.blocks.length := by omega
  rw [show s.blocks.length - 2 = i by omega] at hpast
  have hle := frameAt_le h (show i ≤ i + 1 by omega) hlt
  -- the last block is chosen, its upper bound is drawn and written
  have hfind : findSuitableBlock ops movableBlock s [i + 1, top, bottom] =
      some (some (i + 1), [top, bottom]) := by
    have hindex : (draw [i + 1, top, bottom]).1 % s.blocks.length = i + 1 := mod_eq_of_lt hlt
    unfold findSuitableBlock
    simp only [hindex]
    rw [if_neg (by omega), if_pos (hend ▸ movableBlock_last s)]
    rfl
  have hminmax : findBlockMinmax s (lastFrame - 1) (i + 1) = (s.frameAt i + 1, lastFrame - 1) := by
    unfold findBlockMinmax
    simp only
    rw [if_pos hend, if_neg (succ_ne_zero i), Nat.add_sub_cancel]
    congr 1
    omega
  have hchoose : ∀ frame, chooseFrame ops (s.frameAt i + 1) (lastFrame - 1) frame [top, bottom] =
      (lastFrame, [bottom]) := by
    intro frame
    have hresult := htop (s.frameAt i + 1) lastFrame [bottom]
    unfold chooseFrame
    simp only [Int.sub_add_cancel, hresult]
    rw [if_neg (show ¬ lastFrame = 0 by omega)]
    rfl
  refine ⟨[i + 1, top, bottom], s.modifyBlock (i + 1) (fun b => { b with frame := lastFrame }), [],
    ?_, ?_⟩
  · unfold rngBlockMoverMutate
    simp only [hfind, some_bind, getElem?_eq_getElem hlt, hminmax, hchoose, hbottom []]
    rfl
  · intro hordered
    have hlen : i + 1 < (s.modifyBlock (i + 1) fun b => { b with frame := lastFrame }).blocks.length :=
      (length_modify _ s.blocks (i + 1)).symm ▸ hlt
    have hsorted := frameAt_le hordered (show i ≤ i + 1 by omega) hlen
    rw [frameAt_eq hlen, frameAt_eq (by omega)] at hsorted
    simp only [TASScript.modifyBlock, getElem_modify] at hsorted
    rw [if_neg (by omega), if_pos trivial, ← frameAt_eq] at hsorted
    exact absurd (show s.frameAt i ≤ lastFrame from hsorted) (by omega)

/-! ## Sequences of calls -/

/-- The indices that an algorithm keeps are below `n`. -/
def Valid (n : ℕ) : Algorithm F R → Prop
  | .turnOptimizer self => TurnValid n self
  | .strafeAdjuster self => RollerValid n self
  | .frameBlockMover self => RollerValid n self
  | _ => True

/-- `Mutate` of the algorithm does not call `abort`. -/
def Ready : Algorithm F R → Prop
  | .turnOptimizer self => TurnReady self
  | _ => True

variable {a : Algorithm F R}

theorem Valid.mono {m : ℕ} (h : Valid n a) (hnm : n ≤ m) : Valid m a := by
  cases a with
  | turnOptimizer self =>
    intro i hi
    obtain ⟨j, hj, hlt⟩ := h i hi
    exact ⟨j, hj, hlt.trans_le hnm⟩
  | rngStrafer => trivial
  | rngBlockMover => trivial
  | rngShooter => trivial
  | strafeAdjuster self => exact fun i hi => (h i hi).trans_le hnm
  | frameBlockMover self => exact fun i hi => (h i hi).trans_le hnm

theorem rollerValid_reportResult [LinearOrder R] (h : RollerValid n self) (efficacy : R) :
    RollerValid n (self.reportResult ops efficacy) := by
  unfold BlockRoller.reportResult
  split
  · exact h
  · exact fun i hi => (nomatch hi)

theorem Valid.reportResult [LinearOrder R] (h : Valid n a) (efficacy : R) :
    Valid n (a.reportResult ops efficacy) := by
  cases a with
  | turnOptimizer self =>
    show TurnValid n (self.reportResult ops efficacy)
    unfold TurnOptimizer.reportResult
    simp only
    split <;> exact h
  | rngStrafer => trivial
  | rngBlockMover => trivial
  | rngShooter => trivial
  | strafeAdjuster self => exact rollerValid_reportResult ops h efficacy
  | frameBlockMover self => exact rollerValid_reportResult ops h efficacy

theorem Valid.reset (h : Valid n a) : Valid n (a.reset ops) := by
  cases a with
  | turnOptimizer self => exact fun i hi => (nomatch hi)
  | rngStrafer => trivial
  | rngBlockMover => trivial
  | rngShooter => trivial
  | strafeAdjuster self => exact fun i hi => (nomatch hi)
  | frameBlockMover self => exact h

theorem valid_make (n : ℕ) (e : AlgorithmEnum) : Valid n (make ops e) := by
  cases e with
  | turnOptimizer => exact fun i hi => (nomatch hi)
  | rngStrafer => trivial
  | rngBlockMover => trivial
  | rngShooter => trivial
  | strafeAdjuster => exact fun i hi => (nomatch hi)
  | frameBlockMover => exact fun i hi => (nomatch hi)

section Calls

variable [LinearOrder R] [BEq F] {A : Type}

theorem mutate_spec {ops : MutatorArith F R} (hops : ops.RandomInRange) (beyond : ℕ → FrameData R)
    {a : Algorithm F R} {opt : Optimizer F R A} (hscript : opt.currentRun.script.WellOrdered)
    (hne : opt.currentRun.script.blocks ≠ []) (hlast : 1 ≤ opt.lastFrame)
    (hvalid : Valid opt.currentRun.script.blocks.length a) (hready : Ready a) :
    ∃ a' t rng, a.mutate ops beyond opt = some (a', t, rng) ∧
      opt.currentRun.script.blocks.length ≤ t.blocks.length ∧ Valid t.blocks.length a' ∧
      ((a = .rngBlockMover → Inside opt.currentRun.script opt.lastFrame) → t.WellOrdered) := by
  cases a with
  | turnOptimizer self =>
    obtain ⟨self', t, rng, heq, hpres, hv⟩ := turnMutate_spec ops hvalid hready opt.rng
    exact ⟨.turnOptimizer self', t, rng, by simp [Algorithm.mutate, heq], hpres.length_le, hv,
      fun _ => hpres.ordered hscript⟩
  | rngStrafer =>
    obtain ⟨t, rng, heq, hpres⟩ := rngStraferMutate_spec ops hne opt.rng
    exact ⟨.rngStrafer, t, rng, by simp [Algorithm.mutate, heq], hpres.length_le, trivial,
      fun _ => hpres.ordered hscript⟩
  | rngBlockMover =>
    obtain ⟨t, rng, heq, hlen, hinside⟩ :=
      rngBlockMoverMutate_spec ops hne opt.lastFrame opt.rng
    exact ⟨.rngBlockMover, t, rng, by simp [Algorithm.mutate, heq], hlen, trivial,
      fun h => hinside hops hscript hlast (h rfl)⟩
  | rngShooter =>
    have hpres := rngShooterMutate_preserves opt.currentRun.script opt.lastFrame opt.rng
    exact ⟨.rngShooter, _, _, rfl, hpres.length_le, trivial, fun _ => hpres.ordered hscript⟩
  | strafeAdjuster self =>
    obtain ⟨self', t, rng, heq, hpres, hv⟩ := strafeAdjusterMutate_spec ops beyond hvalid
      opt.currentRun.vecData opt.currentRun.efficacy opt.rng
    exact ⟨.strafeAdjuster self', t, rng, by simp [Algorithm.mutate, heq], hpres.length_le, hv,
      fun _ => hpres.ordered hscript⟩
  | frameBlockMover self =>
    obtain ⟨self', t, rng, heq, hpres, hv⟩ := frameBlockMoverMutate_spec ops hvalid
      opt.lastFrame opt.currentRun.efficacy opt.rng
    exact ⟨.frameBlockMover self', t, rng, by simp [Algorithm.mutate, heq], hpres.length_le, hv,
      fun _ => hpres.ordered hscript⟩

theorem mutate_eq_none (ops : MutatorArith F R) (beyond : ℕ → FrameData R) {a : Algorithm F R}
    (opt : Optimizer F R A) (hready : ¬ Ready a) : a.mutate ops beyond opt = none := by
  cases a with
  | turnOptimizer self =>
    simp [Algorithm.mutate, turnMutate_eq_none ops hready opt.currentRun.script opt.rng]
  | rngStrafer => exact absurd trivial hready
  | rngBlockMover => exact absurd trivial hready
  | rngShooter => exact absurd trivial hready
  | strafeAdjuster self => exact absurd trivial hready
  | frameBlockMover self => exact absurd trivial hready

/-- A call of an algorithm, by its index in `m_vecAlgorithms`.  Before `Mutate` the current run
has recorded some frames and been given an efficacy. -/
inductive Call (R : Type) where
  | mutate (i : ℕ) (vecData : List (FrameData R)) (efficacy : R)
  | reportResult (i : ℕ) (efficacy : R)
  | reset (i : ℕ)

/-- The optimizer with the data of the run that is to be mutated. -/
def recorded (opt : Optimizer F R A) (vecData : List (FrameData R)) (efficacy : R) :
    Optimizer F R A :=
  { opt with currentRun := { opt.currentRun with vecData := vecData, efficacy := efficacy } }

/-- An algorithm replaced. -/
def setAlgorithm (opt : Optimizer F R A) (i : ℕ) (a : A) : Optimizer F R A :=
  { opt with algorithms := opt.algorithms.set i a }

/-- The state after a call, if it returns. -/
def step (alg : AlgorithmOps F R A) (opt : Optimizer F R A) : Call R → Option (Optimizer F R A)
  | .mutate i vecData efficacy => do
    let opt := recorded opt vecData efficacy
    let a ← opt.algorithms[i]?
    let (a, script, rng) ← alg.mutate a opt
    some { setAlgorithm (opt.withScript script) i a with rng := rng }
  | .reportResult i efficacy =>
    (opt.algorithms[i]?).map fun a => setAlgorithm opt i (alg.reportResult a efficacy)
  | .reset i => (opt.algorithms[i]?).map fun a => setAlgorithm opt i (alg.reset a)

/-- The condition on a call: when `RNGBlockMover` mutates the script, the last block but one
does not lie past the end of the window. -/
def Windowed (opt : Optimizer F R (Algorithm F R)) : Call R → Prop
  | .mutate i _ _ =>
    opt.algorithms[i]? = some .rngBlockMover → Inside opt.currentRun.script opt.lastFrame
  | _ => True

/-- The optimizer before the first call. -/
structure Start (ops : MutatorArith F R) (opt : Optimizer F R (Algorithm F R)) : Prop where
  algorithms : ∃ es : List AlgorithmEnum, opt.algorithms = es.map (make ops)
  nonempty : opt.currentRun.script.blocks ≠ []
  increasing : (opt.currentRun.script.blocks.map frame).Pairwise (· < ·)
  nonneg : ∀ b ∈ opt.currentRun.script.blocks, 0 ≤ b.frame
  lastFrame : 1 ≤ opt.lastFrame

/-- The invariant of the calls. -/
structure Inv (opt : Optimizer F R (Algorithm F R)) : Prop where
  ordered : opt.currentRun.script.WellOrdered
  nonempty : opt.currentRun.script.blocks ≠ []
  lastFrame : 1 ≤ opt.lastFrame
  valid : ∀ a ∈ opt.algorithms, Valid opt.currentRun.script.blocks.length a

omit [LinearOrder R] [BEq F] in
theorem Start.inv {ops : MutatorArith F R} {opt : Optimizer F R (Algorithm F R)}
    (h : Start ops opt) : Inv opt := by
  refine ⟨⟨?_, h.nonneg⟩, h.nonempty, h.lastFrame, ?_⟩
  · exact (pairwise_map.mp h.increasing).imp fun hlt => hlt.le
  · obtain ⟨es, hes⟩ := h.algorithms
    intro a ha
    rw [hes] at ha
    obtain ⟨e, -, rfl⟩ := mem_map.mp ha
    exact valid_make ops _ e

omit [LinearOrder R] [BEq F] in
theorem Inv.setAlgorithm {opt : Optimizer F R (Algorithm F R)} (h : Inv opt) (i : ℕ)
    {a : Algorithm F R} (ha : Valid opt.currentRun.script.blocks.length a) :
    Inv (setAlgorithm opt i a) := by
  refine ⟨h.ordered, h.nonempty, h.lastFrame, fun b hb => ?_⟩
  rcases mem_or_eq_of_mem_set hb with hb | rfl
  · exact h.valid b hb
  · exact ha

theorem Inv.mutate {ops : MutatorArith F R} (hops : ops.RandomInRange) (beyond : ℕ → FrameData R)
    {opt : Optimizer F R (Algorithm F R)} (h : Inv opt) {i : ℕ} {a : Algorithm F R}
    (ha : opt.algorithms[i]? = some a) (hready : Ready a) (vecData : List (FrameData R))
    (efficacy : R) :
    ∃ t, step (algorithmOps ops beyond) opt (.mutate i vecData efficacy) = some t ∧
      (Windowed opt (.mutate i vecData efficacy) → Inv t) := by
  have hvalid := h.valid a (mem_of_getElem? ha)
  obtain ⟨a', script, rng, heq, hlen, hv, hordered⟩ := mutate_spec hops beyond
    (show (recorded opt vecData efficacy).currentRun.script.WellOrdered from h.ordered) h.nonempty
    h.lastFrame hvalid hready
  have hmutate : (algorithmOps ops beyond).mutate a (recorded opt vecData efficacy) =
      some (a', script, rng) := heq
  have ha' : (recorded opt vecData efficacy).algorithms[i]? = some a := ha
  refine ⟨_, by simp only [step, ha', hmutate, some_bind]; rfl, ?_⟩
  intro hwindow
  have hnonempty : script.blocks ≠ [] := by
    have hpos := length_pos_iff.mpr h.nonempty
    exact length_pos_iff.mp (hpos.trans_le hlen)
  refine ⟨hordered fun hmover => hwindow (hmover ▸ ha), hnonempty, h.lastFrame, fun b hb => ?_⟩
  rcases mem_or_eq_of_mem_set hb with hb | rfl
  · exact (h.valid b hb).mono hlen
  · exact hv

theorem inv_step {ops : MutatorArith F R} (hops : ops.RandomInRange) (beyond : ℕ → FrameData R)
    (s : Optimizer F R (Algorithm F R)) (c : Call R) (t : Optimizer F R (Algorithm F R))
    (h : Inv s) (hok : Windowed s c) (hstep : step (algorithmOps ops beyond) s c = some t) :
    Inv t := by
  cases c with
  | mutate i vecData efficacy =>
    have hcall := hstep
    simp only [step, bind_eq_some] at hcall
    obtain ⟨a, ha, _, hmutate, -⟩ := hcall
    have hready : Ready a := by
      by_contra hnot
      have hnone := mutate_eq_none ops beyond (recorded s vecData efficacy) hnot
      rw [show (algorithmOps ops beyond).mutate a (recorded s vecData efficacy) = none from hnone]
        at hmutate
      cases hmutate
    obtain ⟨t', ht', hinv⟩ := h.mutate hops beyond ha hready vecData efficacy
    rw [hstep] at ht'
    cases ht'
    exact hinv hok
  | reportResult i efficacy =>
    obtain ⟨a, ha, rfl⟩ := Option.map_eq_some_iff.mp hstep
    exact h.setAlgorithm i ((h.valid a (mem_of_getElem? ha)).reportResult ops efficacy)
  | reset i =>
    obtain ⟨a, ha, rfl⟩ := Option.map_eq_some_iff.mp hstep
    exact h.setAlgorithm i ((h.valid a (mem_of_getElem? ha)).reset ops)

/-- **The mutations keep the script ordered inside the window.** Whatever the random engine answers,
whatever efficacies are reported, and in whichever order the algorithms are called: if the last
block but one lies inside the window whenever `RNGBlockMover` mutates, the frames stay non-negative
and non-decreasing, and every further `Mutate` returns, unless it is that of a `TurnOptimizer` that
has moved a turn and has not been told the result. -/
theorem windowed_mutations_keep_script_ordered (ops : MutatorArith F R)
    (hops : ops.RandomInRange) (beyond : ℕ → FrameData R) (s t : Optimizer F R (Algorithm F R))
    (hs : Start ops s) (calls : List (Call R))
    (hcalls : Guarded (step (algorithmOps ops beyond)) Windowed s calls)
    (hrun : run (step (algorithmOps ops beyond)) s calls = some t) :
    t.currentRun.script.WellOrdered ∧
      ∀ i a vecData efficacy, t.algorithms[i]? = some a → Ready a →
        ∃ u, step (algorithmOps ops beyond) t (.mutate i vecData efficacy) = some u := by
  have hinv : Inv t := invariant_run (inv_step hops beyond) hs.inv hcalls hrun
  refine ⟨hinv.ordered, fun i a vecData efficacy ha hready => ?_⟩
  obtain ⟨u, hu, -⟩ := hinv.mutate hops beyond ha hready vecData efficacy
  exact ⟨u, hu⟩

end Calls

/-! ### A window that ends before the last block but one -/

/-- An optimizer with one `RNGBlockMover`, on a script with the given frames. -/
def exampleOptimizer (frames : List Int) (lastFrame : Int) (rng : Draws) :
    Optimizer ℚ ℚ (Algorithm ℚ ℚ) :=
  let run : OptimizerRun ℚ ℚ :=
    { efficacy := 0, playbackInfo := { currentScript := { blocks := frames.map fun f => { frame := f } } }
      levelTime := 0, teleportTime := 1000, hp := 100, ap := 0 }
  { algorithms := [.rngBlockMover], currentBest := run, currentRun := run
    settings := { targetPos := ⟨0, 0, 0⟩, algorithms := [] }, rng := rng, compoundingProbs := [1]
    currentAlgorithm := none, lastFrame := lastFrame, iteration := 0, maxTime := 0
    iterationsWithoutProgress := 0, runConditions := { totalHP := 1 } }

/-- The arithmetic of the examples. -/
def exampleArith : MutatorArith ℚ ℚ := rationalArith fun _ _ => 0

def exampleAlgorithms : AlgorithmOps ℚ ℚ (Algorithm ℚ ℚ) :=
  algorithmOps exampleArith fun _ => ⟨⟨0, 0, 0⟩, 999⟩

theorem exampleOptimizer_start {frames : List Int} (hne : frames ≠ [])
    (hinc : frames.Pairwise (· < ·)) (hnonneg : ∀ f ∈ frames, 0 ≤ f) (hlast : 1 ≤ lastFrame)
    (rng : Draws) : Start exampleArith (exampleOptimizer frames lastFrame rng) := by
  have hblocks : (exampleOptimizer frames lastFrame rng).currentRun.script.blocks =
      frames.map fun f => { frame := f } := rfl
  refine ⟨⟨[.rngBlockMover], rfl⟩, ?_, ?_, ?_, hlast⟩
  · rw [hblocks]
    simpa using hne
  · rw [hblocks, map_map]
    simpa [Function.comp_def] using hinc
  · rw [hblocks]
    intro b hb
    obtain ⟨f, hf, rfl⟩ := mem_map.mp hb
    exact hnonneg f hf

/-- Inside the window the same draws keep the order. -/
theorem windowed_mutations_keep_script_ordered_example :
    ∃ t, run (step exampleAlgorithms) (exampleOptimizer [0, 60, 100] 80 [2, 4294967295, 0])
        [.mutate 0 [] 0] = some t ∧
      t.currentRun.script.blocks.map frame = [0, 60, 80] ∧
      t.currentRun.script.WellOrdered := by
  have hresult : (run (step exampleAlgorithms)
      (exampleOptimizer [0, 60, 100] 80 [2, 4294967295, 0]) [.mutate 0 [] 0]).map
      (fun t => t.currentRun.script.blocks.map frame) = some [0, 60, 80] := by
    decide +kernel
  obtain ⟨t, ht, hframes⟩ := Option.map_eq_some_iff.mp hresult
  have hguard : Guarded (step exampleAlgorithms) Windowed
      (exampleOptimizer [0, 60, 100] 80 [2, 4294967295, 0]) [.mutate 0 [] 0] :=
    ⟨fun _ => by decide, fun _ _ => trivial⟩
  have h := windowed_mutations_keep_script_ordered exampleArith (rationalArith_randomInRange _)
    (fun _ => ⟨⟨0, 0, 0⟩, 999⟩) _ t
    (exampleOptimizer_start (by decide) (by decide) (by decide) (by decide) _) _ hguard ht
  exact ⟨t, ht, hframes, h.1⟩

/-- Past the window they do not: the last block lands on frame 50, before the block on
frame 60. -/
theorem block_mover_breaks_order :
    Start exampleArith (exampleOptimizer [0, 60, 100] 50 [2, 4294967295, 0]) ∧
      ∃ t, run (step exampleAlgorithms) (exampleOptimizer [0, 60, 100] 50 [2, 4294967295, 0])
          [.mutate 0 [] 0] = some t ∧
        t.currentRun.script.blocks.map frame = [0, 60, 50] ∧
        ¬ t.currentRun.script.WellOrdered := by
  refine ⟨exampleOptimizer_start (by decide) (by decide) (by decide) (by decide) _, ?_⟩
  have hresult : (run (step exampleAlgorithms)
      (exampleOptimizer [0, 60, 100] 50 [2, 4294967295, 0]) [.mutate 0 [] 0]).map
      (fun t => t.currentRun.script.blocks.map frame) = some [0, 60, 50] := by
    decide +kernel
  obtain ⟨t, ht, hframes⟩ := Option.map_eq_some_iff.mp hresult
  refine ⟨t, ht, hframes, fun hordered => ?_⟩
  have hsorted := pairwise_map.mpr hordered.sorted
  rw [hframes] at hsorted
  exact absurd hsorted (by decide)

end TASQuake.Analysis.MutationOrder
