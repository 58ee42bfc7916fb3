import TASQuake.Lib.Convergents
import TASQuake.Model.Ratio

/-!
# The accuracy of `BrapAlg`

From its first round on the loop of `BrapAlg` holds two convergents of the ratio in a row (`Inv`),
which are bounded by the scale of the ratio.  If it ends with a remainder or with too large a
denominator, the convergent before is used.
-/

namespace TASQuake.Analysis.RatioApproximation

open Lib Brap Int

/-! ## The loop -/

theorem int64_of_le_scale {n : Int} (hn : 0 ≤ n) (hle : n ≤ scale) : int64 n = some n := by
  unfold scale at hle
  exact if_pos ⟨by omega, by omega⟩

/-- The numerators and denominators are between 0 and the scale. -/
structure InRange (s : Brap) : Prop where
  p0 : 0 ≤ s.p0 ∧ s.p0 ≤ scale
  p1 : 0 ≤ s.p1 ∧ s.p1 ≤ scale
  p2 : 0 ≤ s.p2 ∧ s.p2 ≤ scale
  q0 : 0 ≤ s.q0 ∧ s.q0 ≤ scale
  q1 : 0 ≤ s.q1 ∧ s.q1 ≤ scale
  q2 : 0 ≤ s.q2 ∧ s.q2 ≤ scale

/-- The variables hold two convergents of `D / 10 ^ 18`. -/
def Holds (D : Int) (s : Brap) : Prop :=
  Convergents D scale s.p0 s.q0 s.remainder s.p1 s.q1 s.divisor

/-- What holds whenever the condition of the loop is evaluated. -/
structure Inv (D maxInt : Int) (s : Brap) : Prop where
  inRange : InRange s
  q1_le : s.q1 ≤ maxInt
  state : s = start D ∨ s.i ≠ 0 ∧ Holds D s

variable {D maxInt : Int} {s : Brap}

theorem scale_pos : 0 < scale := by decide

theorem zero_mem : (0 : Int) ≤ 0 ∧ (0 : Int) ≤ scale := ⟨le_rfl, scale_pos.le⟩

theorem one_mem : (0 : Int) ≤ 1 ∧ (1 : Int) ≤ scale := ⟨zero_le_one, scale_pos⟩

theorem inv_start (D : Int) (hmax : 1 ≤ maxInt) : Inv D maxInt (start D) :=
  ⟨⟨one_mem, zero_mem, zero_mem, zero_mem, zero_mem, zero_mem⟩, zero_le_one.trans hmax, .inl rfl⟩

theorem body_start (hD : 0 ≤ D) (hle : D ≤ scale) :
    ∃ t, body (start D) = some t ∧ InRange t ∧ t.i ≠ 0 ∧ Holds D t ∧ t.q1 = 0 ∧
      t.remainder = D % scale := by
  have hconv := Convergents.start hD scale_pos
  have hnum := hconv.num_le_den hle
  have hnonneg := hconv.p_nonneg
  have hone := scale_pos
  have hquot := int64_of_le_scale hnonneg (hnum.trans hone)
  refine ⟨{ p0 := D / scale, p1 := 1, p2 := 0, q0 := 1, q1 := 0, q2 := 0, remainder := D % scale
            divisor := scale, i := 1 }, ?_, ?_, Nat.one_ne_zero, hconv, rfl, rfl⟩
  · unfold body start
    simp only [tdiv_eq_ediv_of_nonneg hD, tmod_eq_emod_of_nonneg hD, hquot,
      if_neg scale_pos.ne', if_true, some_bind]
  · exact ⟨⟨hnonneg, hnum.trans hone⟩, one_mem, zero_mem, one_mem, zero_mem, zero_mem⟩

theorem body_holds (hle : D ≤ scale) (hrange : InRange s) (hi : s.i ≠ 0) (h : Holds D s)
    (hrem : s.remainder ≠ 0) :
    ∃ t, body s = some t ∧ InRange t ∧ t.i ≠ 0 ∧ Holds D t ∧ t.q1 = s.q0 ∧
      t.remainder = s.divisor % s.remainder := by
  have hconv := Convergents.next h hrem
  have hdivisor : 0 ≤ s.divisor := (Convergents.r_pos' h).le
  have hq := hconv.den_le
  have hp := (hconv.num_le_den hle).trans hq
  obtain ⟨hp1, hp1'⟩ := hrange.p1
  obtain ⟨hq1, hq1'⟩ := hrange.q1
  have hquot := ediv_nonneg hdivisor h.r_nonneg
  have hap := mul_nonneg hquot hrange.p0.1
  have haq := mul_nonneg hquot hrange.q0.1
  -- the quotient itself is bounded by its product with the denominator
  have hquotLe : s.divisor / s.remainder ≤ scale := by
    have hone := mul_le_mul_of_nonneg_left h.q_pos hquot
    omega
  refine ⟨{ p0 := s.divisor / s.remainder * s.p0 + s.p1, p1 := s.p0, p2 := s.p1
            q0 := s.divisor / s.remainder * s.q0 + s.q1, q1 := s.q0, q2 := s.q1
            remainder := s.divisor % s.remainder, divisor := s.remainder, i := s.i + 1 },
    ?_, ?_, Nat.succ_ne_zero _, hconv, rfl, rfl⟩
  · unfold body
    simp only [tdiv_eq_ediv_of_nonneg hdivisor, tmod_eq_emod_of_nonneg hdivisor,
      if_neg hrem, if_neg hi, some_bind,
      int64_of_le_scale hquot hquotLe, int64_of_le_scale hap (by omega),
      int64_of_le_scale haq (by omega), int64_of_le_scale hconv.p_nonneg hp,
      int64_of_le_scale hconv.q_pos.le hq]
  · exact ⟨⟨hconv.p_nonneg, hp⟩, hrange.p0, hrange.p1, ⟨hconv.q_pos.le, hq⟩, hrange.q0, hrange.q1⟩

theorem goesOn_iff : goesOn maxInt s = true ↔ s.remainder ≠ 0 ∧ s.q0 ≤ maxInt := by
  unfold goesOn
  rw [Bool.and_eq_true, bne_iff_ne, decide_eq_true_iff]

theorem exists_body (hD : 0 ≤ D) (hle : D ≤ scale) (h : Inv D maxInt s)
    (hcond : goesOn maxInt s = true) :
    ∃ t, body s = some t ∧ Inv D maxInt t ∧ t.remainder.natAbs < s.remainder.natAbs := by
  obtain ⟨hrem, hq0⟩ := goesOn_iff.mp hcond
  obtain ⟨hrange, hq1, rfl | ⟨hi, hholds⟩⟩ := h
  · obtain ⟨t, hbody, ht, hi, hholds, hq, heq⟩ := body_start hD hle
    refine ⟨t, hbody, ⟨ht, hq.trans_le hq0, .inr ⟨hi, hholds⟩⟩, ?_⟩
    have hlt := emod_lt_of_pos D scale_pos
    have hnonneg := emod_nonneg D scale_pos.ne'
    rw [heq]
    show (D % scale).natAbs < scale.natAbs
    omega
  · obtain ⟨t, hbody, ht, hi', hholds', hq, heq⟩ := body_holds hle hrange hi hholds hrem
    refine ⟨t, hbody, ⟨ht, hq.trans_le hq0, .inr ⟨hi', hholds'⟩⟩, ?_⟩
    have hpos : 0 < s.remainder := lt_of_le_of_ne hholds.r_nonneg hrem.symm
    have hlt := emod_lt_of_pos s.divisor hpos
    have hnonneg := emod_nonneg s.divisor hrem
    rw [heq]
    omega

/-! ## The result -/

/-- The convergent used, and its error. -/
structure Accurate (D maxInt p q : Int) : Prop where
  p_nonneg : 0 ≤ p
  p_le : p ≤ q
  q_pos : 0 < q
  q_le : q ≤ maxInt
  error : D * q = scale * p ∨ |D * q - scale * p| * maxInt < scale

theorem accurate_used (hle : D ≤ scale) (hmax : 1 ≤ maxInt) (h : Inv D maxInt s)
    (hend : goesOn maxInt s = false) :
    Accurate D maxInt (s.used maxInt).1 (s.used maxInt).2 := by
  have hstop : ¬ (s.remainder ≠ 0 ∧ s.q0 ≤ maxInt) := by
    rw [← goesOn_iff, hend]
    exact Bool.false_ne_true
  obtain ⟨-, hq1, rfl | ⟨-, hholds⟩⟩ := h
  · -- the loop does not end before its first round
    exact absurd ⟨scale_pos.ne', zero_le_one.trans hmax⟩ hstop
  · have hconv := hholds
    unfold used
    split
    · next hexact =>
      obtain ⟨hzero, hq⟩ := hexact
      refine ⟨hconv.p_nonneg, hconv.num_le_den hle, hconv.q_pos, hq, .inl (sub_eq_zero.mp ?_)⟩
      rcases hconv.error with ⟨herr, -⟩ | ⟨herr, -⟩
      · exact herr.trans hzero
      · rw [herr, hzero, neg_zero]
    · next hinexact =>
      -- the last denominator is too large, and the convergent before it is used
      have hlarge : maxInt < s.q0 := by
        by_contra hsmall
        have hq := not_lt.mp hsmall
        exact hinexact ⟨by_contra fun hrem => hstop ⟨hrem, hq⟩, hq⟩
      have hlt := hconv.r_lt_of_one_lt (hmax.trans_lt hlarge)
      exact ⟨hconv.p_nonneg', hconv.num_le_den' hle hlt, hconv.den_pos hlt, hq1,
        .inr (hconv.abs_error_mul_lt hlarge)⟩

/-- The pair that is returned: the convergent, enlarged. -/
structure Enlarged (maxInt p q P Q : Int) : Prop where
  p_eq : P = p * (maxInt / max p q)
  q_eq : Q = q * (maxInt / max p q)
  p_nonneg : 0 ≤ P
  p_le : P ≤ Q
  q_pos : 1 ≤ Q
  q_le : Q ≤ maxInt

theorem enlarged {p q : Int} (h : Accurate D maxInt p q) :
    Enlarged maxInt p q (p * (maxInt / max p q)) (q * (maxInt / max p q)) := by
  have hpos := h.q_pos
  have hmult : 0 < maxInt / max p q := by
    rw [max_eq_right h.p_le]
    exact Int.le_ediv_of_mul_le hpos ((one_mul q).trans_le h.q_le)
  have hmul : q * (maxInt / max p q) ≤ maxInt := by
    rw [max_eq_right h.p_le]
    exact mul_ediv_self_le hpos.ne'
  exact ⟨rfl, rfl, mul_nonneg h.p_nonneg hmult.le, mul_le_mul_of_nonneg_right h.p_le hmult.le,
    mul_pos hpos hmult, hmul⟩

theorem brapAlg_eq {P Q : Int} (hint : maxInt < 2 ^ 31) (hloop : (start D).loop maxInt = some s)
    (h : Accurate D maxInt (s.used maxInt).1 (s.used maxInt).2)
    (hlarge : Enlarged maxInt (s.used maxInt).1 (s.used maxInt).2 P Q) :
    brapAlg D maxInt = some (P, Q) := by
  have hpos := h.q_pos
  have hq := h.q_le
  have hnonzero : ¬ max (s.used maxInt).2 (s.used maxInt).1 = 0 := by
    rw [max_eq_left h.p_le]
    exact hpos.ne'
  have hmult : int32 (maxInt.tdiv (max (s.used maxInt).2 (s.used maxInt).1)) =
      some (maxInt / max (s.used maxInt).1 (s.used maxInt).2) := by
    rw [max_comm, tdiv_eq_ediv_of_nonneg (by omega)]
    have hnonneg : 0 ≤ maxInt / max (s.used maxInt).1 (s.used maxInt).2 :=
      ediv_nonneg (by omega) (le_max_of_le_right hpos.le)
    have hle : maxInt / max (s.used maxInt).1 (s.used maxInt).2 ≤ maxInt :=
      ediv_le_self _ (by omega)
    exact if_pos ⟨by omega, by omega⟩
  have hscale : maxInt ≤ scale := by
    unfold scale
    omega
  have hP := int64_of_le_scale hlarge.p_nonneg (hlarge.p_le.trans (hlarge.q_le.trans hscale))
  have hQ := int64_of_le_scale (zero_le_one.trans hlarge.q_pos) (hlarge.q_le.trans hscale)
  rw [hlarge.p_eq] at hP
  rw [hlarge.q_eq] at hQ
  unfold brapAlg
  simp only [hloop, if_neg hnonzero, hmult, hP, hQ, some_bind]
  rw [hlarge.p_eq, hlarge.q_eq]

theorem exists_brapAlg (hD : 0 ≤ D) (hle : D ≤ scale) (hmax : 1 ≤ maxInt) (hint : maxInt < 2 ^ 31) :
    ∃ s P Q, (start D).loop maxInt = some s ∧ brapAlg D maxInt = some (P, Q) ∧
      Enlarged maxInt (s.used maxInt).1 (s.used maxInt).2 P Q ∧
      (D * Q = scale * P ∨
        |D * (s.used maxInt).2 - scale * (s.used maxInt).1| * maxInt < scale) := by
  obtain ⟨s, hloop, hinv, hend⟩ :=
    exists_whileLoop (fun s hs hcond => exists_body hD hle hs hcond) (inv_start D hmax)
      (Nat.lt_succ_self _)
  have haccurate := accurate_used hle hmax hinv hend
  have hlarge := enlarged haccurate
  refine ⟨s, _, _, hloop, brapAlg_eq hint hloop haccurate hlarge, hlarge, ?_⟩
  refine haccurate.error.imp_left fun hexact => ?_
  rw [← mul_assoc, ← mul_assoc, hexact]

/-- **`BrapAlg` returns, nothing overflows, and the result is accurate.**  No round divides by zero
or leaves the range of 64 bits; the pair returned is a convergent, enlarged as far as `max_int`
allows, which is exact or nearer to the ratio than `1 / max_int` is to a denominator. -/
theorem brapAlg_approximates (D maxInt : Int) (hD : 0 ≤ D) (hle : D ≤ scale) (hmax : 1 ≤ maxInt)
    (hint : maxInt < 2 ^ 31) :
    (∀ s, Visits (goesOn maxInt) body (start D) s → InRange s ∧
      (goesOn maxInt s = true → s.remainder ≠ 0 ∧ (body s).isSome = true)) ∧
    ∃ s P Q, (start D).loop maxInt = some s ∧ brapAlg D maxInt = some (P, Q) ∧
      Enlarged maxInt (s.used maxInt).1 (s.used maxInt).2 P Q ∧
      (D * Q = scale * P ∨
        |D * (s.used maxInt).2 - scale * (s.used maxInt).1| * maxInt < scale) := by
  refine ⟨fun s hvisits => ?_, exists_brapAlg hD hle hmax hint⟩
  have hinv : Inv D maxInt s := by
    refine hvisits.invariant (fun s t hs hcond hbody => ?_) (inv_start D hmax)
    obtain ⟨t', hbody', ht', -⟩ := exists_body hD hle hs hcond
    rw [hbody] at hbody'
    cases hbody'
    exact ht'
  refine ⟨hinv.inRange, fun hcond => ⟨(goesOn_iff.mp hcond).1, ?_⟩⟩
  obtain ⟨t, hbody, -⟩ := exists_body hD hle hinv hcond
  rw [hbody]
  rfl

/-- The ratio of the moves for an eighth of a turn, with a `tas_strafe_maxlength` of 32767. -/
theorem brapAlg_approximates_eighth :
    ∃ (s : Brap) (P Q : Int), brapAlg 414213562373095049 32767 = some (P, Q) ∧
      Enlarged 32767 (s.used 32767).1 (s.used 32767).2 P Q ∧
      (414213562373095049 * Q = scale * P ∨
        |414213562373095049 * (s.used 32767).2 - scale * (s.used 32767).1| * 32767 < scale) := by
  obtain ⟨-, s, P, Q, -, hresult⟩ := brapAlg_approximates 414213562373095049 32767 (by decide)
    (by decide) (by decide) (by decide)
  exact ⟨s, P, Q, hresult⟩

end TASQuake.Analysis.RatioApproximation
