import Mathlib.Algebra.BigOperators.Fin
import Mathlib.Analysis.Convex.Combination
import Mathlib.Analysis.Convex.Join
import Mathlib.Tactic.Linarith
import Mathlib.Tactic.LinearCombination

/-!
# Triangles and nearest points in a plane

Points are pairs over an ordered field, so distances are kept as squares. A triangle is the
convex hull of its corners. Membership is decided by three signed areas, and a member of a
convex set is the nearest one to a point if no direction into the set leads towards it.
-/

namespace Hueplusplus.Plane

variable {K : Type*} [Field K] {a b c p q : K × K}

/-- Twice the signed area of a triangle, positive if it is counterclockwise. -/
def area (a b c : K × K) : K :=
  (b.1 - a.1) * (c.2 - a.2) - (b.2 - a.2) * (c.1 - a.1)

def dot (u v : K × K) : K :=
  u.1 * v.1 + u.2 * v.2

def distSq (p q : K × K) : K :=
  dot (p - q) (p - q)

/-- The foot of the perpendicular from `p` to the line through `a` and `b`. -/
def foot (a b p : K × K) : K × K :=
  a + (dot (p - a) (b - a) / dot (b - a) (b - a)) • (b - a)

theorem area_rotate (a b c : K × K) : area b c a = area a b c := by
  simp only [area]
  ring

theorem distSq_add_smul (p q u : K × K) (r : K) :
    distSq p (q + r • u) = distSq p q - 2 * r * dot (p - q) u + r * r * dot u u := by
  simp only [distSq, dot, Prod.fst_sub, Prod.snd_sub, Prod.fst_add, Prod.snd_add, Prod.smul_fst,
    Prod.smul_snd, smul_eq_mul]
  ring

variable [LinearOrder K]

def triangle (a b c : K × K) : Set (K × K) :=
  convexHull K {a, b, c}

def border (a b c : K × K) : Set (K × K) :=
  segment K a b ∪ segment K b c ∪ segment K c a

/-- `q` lies on the border and no point of the triangle is closer to `p`. -/
def IsNearest (a b c p q : K × K) : Prop :=
  q ∈ border a b c ∧ ∀ t ∈ triangle a b c, distSq p q ≤ distSq p t

theorem triangle_rotate (a b c : K × K) : triangle b c a = triangle a b c := by
  rw [triangle, triangle, Set.pair_comm c a, Set.insert_comm b a]

theorem border_rotate (a b c : K × K) : border b c a = border a b c := by
  rw [border, border, Set.union_comm, ← Set.union_assoc]

theorem isNearest_rotate : IsNearest b c a p q ↔ IsNearest a b c p q := by
  rw [IsNearest, IsNearest, border_rotate, triangle_rotate]

theorem convex_triangle (a b c : K × K) : Convex K (triangle a b c) :=
  convex_convexHull K _

theorem segment_subset_triangle (a b c : K × K) : segment K a b ⊆ triangle a b c :=
  (convex_triangle a b c).segment_subset (subset_convexHull K _ (by simp))
    (subset_convexHull K _ (by simp))

theorem border_subset_triangle (a b c : K × K) : border a b c ⊆ triangle a b c := by
  refine Set.union_subset (Set.union_subset (segment_subset_triangle a b c) ?_) ?_
  · rw [← triangle_rotate]
    exact segment_subset_triangle b c a
  · rw [← triangle_rotate, ← triangle_rotate]
    exact segment_subset_triangle c a b

variable [IsStrictOrderedRing K]

theorem mem_triangle_iff_weights :
    p ∈ triangle a b c ↔ ∃ u v w : K, 0 ≤ u ∧ 0 ≤ v ∧ 0 ≤ w ∧ u + v + w = 1 ∧
      u • a + v • b + w • c = p := by
  constructor
  · intro h
    rw [triangle, ← convexJoin_singleton_segment] at h
    simp only [mem_convexJoin, Set.mem_singleton_iff, exists_eq_left] at h
    obtain ⟨y, ⟨v, w, hv, hw, hvw, rfl⟩, s, r, hs, hr, hsr, rfl⟩ := h
    refine ⟨s, r * v, r * w, hs, mul_nonneg hr hv, mul_nonneg hr hw, ?_, ?_⟩
    · linear_combination hsr + r * hvw
    · simp only [smul_add, smul_smul, add_assoc]
  · rintro ⟨u, v, w, hu, hv, hw, sum, rfl⟩
    have corner : ∀ i : Fin 3, ![a, b, c] i ∈ triangle a b c := fun i =>
      subset_convexHull K _ (by fin_cases i <;> simp)
    have weight : ∀ i : Fin 3, 0 ≤ ![u, v, w] i := fun i => by fin_cases i <;> simpa
    have := (convex_triangle a b c).sum_mem (t := Finset.univ) (w := ![u, v, w])
      (z := ![a, b, c]) (fun i _ => weight i) (by simpa [Fin.sum_univ_three] using sum)
      fun i _ => corner i
    simpa [Fin.sum_univ_three] using this

/-- The weights of a point are the areas it forms with the sides. -/
theorem mem_triangle_iff (ccw : 0 < area a b c) :
    p ∈ triangle a b c ↔ 0 ≤ area a b p ∧ 0 ≤ area b c p ∧ 0 ≤ area c a p := by
  rw [mem_triangle_iff_weights]
  constructor
  · rintro ⟨u, v, w, hu, hv, hw, sum, rfl⟩
    obtain rfl : u = 1 - v - w := by linear_combination sum
    refine ⟨?_, ?_, ?_⟩
    · refine (mul_nonneg hw ccw.le).trans_eq ?_
      simp only [area, Prod.fst_add, Prod.snd_add, Prod.smul_fst, Prod.smul_snd, smul_eq_mul]
      ring
    · refine (mul_nonneg hu ccw.le).trans_eq ?_
      simp only [area, Prod.fst_add, Prod.snd_add, Prod.smul_fst, Prod.smul_snd, smul_eq_mul]
      ring
    · refine (mul_nonneg hv ccw.le).trans_eq ?_
      simp only [area, Prod.fst_add, Prod.snd_add, Prod.smul_fst, Prod.smul_snd, smul_eq_mul]
      ring
  · rintro ⟨hab, hbc, hca⟩
    refine ⟨area b c p / area a b c, area c a p / area a b c, area a b p / area a b c,
      div_nonneg hbc ccw.le, div_nonneg hca ccw.le, div_nonneg hab ccw.le, ?_, ?_⟩
    · rw [← add_div, ← add_div, div_eq_one_iff_eq ccw.ne']
      simp only [area]
      ring
    · ext <;>
        simp only [Prod.fst_add, Prod.snd_add, Prod.smul_fst, Prod.smul_snd, smul_eq_mul,
          div_mul_eq_mul_div, ← add_div, div_eq_iff ccw.ne'] <;>
        simp only [area] <;> ring

theorem dot_self_nonneg (u : K × K) : 0 ≤ dot u u :=
  add_nonneg (mul_self_nonneg _) (mul_self_nonneg _)

/-- The angle at a nearest point of a convex set between the outer point and any member of
the set is at least a right angle, and this makes the point a nearest one. -/
theorem nearest_iff_dot {s : Set (K × K)} (convex : Convex K s) (hq : q ∈ s) :
    (∀ t ∈ s, distSq p q ≤ distSq p t) ↔ ∀ t ∈ s, dot (p - q) (t - q) ≤ 0 := by
  constructor
  · intro nearest t ht
    by_contra! towards
    -- a short step from `q` towards `t` comes closer to `p`
    have hn : 0 ≤ dot (t - q) (t - q) := dot_self_nonneg _
    have pos : 0 < dot (p - q) (t - q) + dot (t - q) (t - q) := by linarith
    have step := nearest _ (convex.add_smul_sub_mem hq ht
      ⟨(div_pos towards pos).le, (div_le_one pos).2 (by linarith)⟩)
    rw [distSq_add_smul] at step
    set d := dot (p - q) (t - q)
    set n := dot (t - q) (t - q)
    set r := d / (d + n) with hr
    have ratio : r * (d + n) = d := div_mul_cancel₀ d pos.ne'
    have hrd : 0 < r * d := mul_pos (div_pos towards pos) towards
    have : 0 ≤ r * r * d := mul_nonneg (mul_self_nonneg r) towards.le
    have : r * r * n = r * d - r * r * d := by linear_combination r * ratio
    linarith
  · intro behind t ht
    have step := distSq_add_smul p q (t - q) 1
    rw [one_smul, add_sub_cancel] at step
    have := behind t ht
    have := dot_self_nonneg (t - q)
    linarith

theorem convex_behind (p q : K × K) : Convex K {t | dot (p - q) (t - q) ≤ 0} := by
  have linear : IsLinearMap K fun t => dot (p - q) t :=
    ⟨fun t u => by simp only [dot, Prod.fst_add, Prod.snd_add]; ring,
      fun r t => by simp only [dot, Prod.smul_fst, Prod.smul_snd, smul_eq_mul]; ring⟩
  have shift : {t | dot (p - q) (t - q) ≤ 0} = {t | dot (p - q) t ≤ dot (p - q) q} := by
    ext t
    rw [Set.mem_ofPred_eq, Set.mem_ofPred_eq, ← sub_nonpos (b := dot (p - q) q)]
    simp only [dot, Prod.fst_sub, Prod.snd_sub]
    ring_nf
  rw [shift]
  exact convex_halfSpace_le linear _

/-- A convex hull lies behind its point `q` if all its generators do. -/
theorem nearest_hull_iff {s : Set (K × K)} (hq : q ∈ convexHull K s) :
    (∀ t ∈ convexHull K s, distSq p q ≤ distSq p t) ↔ ∀ t ∈ s, dot (p - q) (t - q) ≤ 0 := by
  rw [nearest_iff_dot (convex_convexHull K s) hq]
  constructor
  · exact fun h t ht => h t (subset_convexHull K s ht)
  · exact fun h t ht => convexHull_min h (convex_behind p q) ht

/-- A corner is the nearest point if neither side at it leads towards the outer point. -/
theorem isNearest_corner_iff :
    IsNearest a b c p b ↔ dot (p - b) (a - b) ≤ 0 ∧ dot (p - b) (c - b) ≤ 0 := by
  have corner : b ∈ border a b c := Or.inl (Or.inl (right_mem_segment K a b))
  have behind := nearest_hull_iff (p := p) (border_subset_triangle a b c corner)
  rw [IsNearest, triangle, behind]
  simp [corner, dot]

theorem dot_self_pos_of_area (ccw : 0 < area a b c) : 0 < dot (b - a) (b - a) := by
  refine lt_of_le_of_ne (dot_self_nonneg _) fun zero => ccw.ne ?_
  have squares := (add_eq_zero_iff_of_nonneg (mul_self_nonneg _) (mul_self_nonneg _)).1 zero.symm
  have h1 : b.1 - a.1 = 0 := mul_self_eq_zero.1 squares.1
  have h2 : b.2 - a.2 = 0 := mul_self_eq_zero.1 squares.2
  rw [area, h1, h2]
  ring

/-- The perpendicular at the foot separates points by their side of the line. -/
theorem dot_sub_foot (side : 0 < dot (b - a) (b - a)) (t : K × K) :
    dot (p - foot a b p) (t - foot a b p) = area a b p * area a b t / dot (b - a) (b - a) := by
  have ratio : dot (p - a) (b - a) / dot (b - a) (b - a) * dot (b - a) (b - a) =
      dot (p - a) (b - a) := div_mul_cancel₀ _ side.ne'
  rw [eq_div_iff side.ne', foot]
  set r := dot (p - a) (b - a) / dot (b - a) (b - a)
  simp only [dot, area, Prod.fst_sub, Prod.snd_sub, Prod.fst_add, Prod.snd_add, Prod.smul_fst,
    Prod.smul_snd, smul_eq_mul] at ratio ⊢
  linear_combination (r * ((b.1 - a.1) * (b.1 - a.1) + (b.2 - a.2) * (b.2 - a.2)) -
    ((b.1 - a.1) * (t.1 - a.1) + (b.2 - a.2) * (t.2 - a.2))) * ratio

theorem foot_mem_segment (along : 0 ≤ dot (p - a) (b - a))
    (within : dot (p - a) (b - a) ≤ dot (b - a) (b - a)) : foot a b p ∈ segment K a b := by
  rw [segment_eq_image']
  exact ⟨_, ⟨div_nonneg along (dot_self_nonneg _), div_le_one_of_le₀ within (dot_self_nonneg _)⟩,
    rfl⟩

theorem foot_mem_triangle_iff (ccw : 0 < area a b c) :
    foot a b p ∈ triangle a b c ↔
      0 ≤ dot (p - a) (b - a) ∧ dot (p - a) (b - a) ≤ dot (b - a) (b - a) := by
  have side := dot_self_pos_of_area ccw
  constructor
  · intro h
    obtain ⟨-, hbc, hca⟩ := (mem_triangle_iff ccw).1 h
    set r := dot (p - a) (b - a) / dot (b - a) (b - a) with hr
    have before : area b c (foot a b p) = (1 - r) * area a b c := by
      simp only [foot, area, ← hr, Prod.fst_add, Prod.snd_add, Prod.smul_fst, Prod.smul_snd,
        Prod.fst_sub, Prod.snd_sub, smul_eq_mul]
      ring
    have after : area c a (foot a b p) = r * area a b c := by
      simp only [foot, area, ← hr, Prod.fst_add, Prod.snd_add, Prod.smul_fst, Prod.smul_snd,
        Prod.fst_sub, Prod.snd_sub, smul_eq_mul]
      ring
    rw [before] at hbc
    rw [after] at hca
    have lower : 0 ≤ r := nonneg_of_mul_nonneg_left hca ccw
    have upper : 0 ≤ 1 - r := nonneg_of_mul_nonneg_left hbc ccw
    rw [hr, le_div_iff₀ side, zero_mul] at lower
    rw [hr, sub_nonneg, div_le_one side] at upper
    exact ⟨lower, upper⟩
  · rintro ⟨along, within⟩
    exact segment_subset_triangle a b c (foot_mem_segment along within)

/-- The foot on a side is the nearest point to a point beyond that side if it falls between
the two corners. -/
theorem isNearest_foot_iff (ccw : 0 < area a b c) (beyond : area a b p < 0) :
    IsNearest a b c p (foot a b p) ↔
      0 ≤ dot (p - a) (b - a) ∧ dot (p - a) (b - a) ≤ dot (b - a) (b - a) := by
  have side := dot_self_pos_of_area ccw
  constructor
  · rintro ⟨onBorder, -⟩
    exact (foot_mem_triangle_iff ccw).1 (border_subset_triangle a b c onBorder)
  · rintro ⟨along, within⟩
    have member := foot_mem_segment along within
    refine ⟨Or.inl (Or.inl member), ?_⟩
    rw [triangle, nearest_hull_iff (segment_subset_triangle a b c member)]
    have ha : area a b a = 0 := by rw [area]; ring
    have hb : area a b b = 0 := by rw [area]; ring
    rintro t (rfl | rfl | rfl)
    · rw [dot_sub_foot side, ha, mul_zero, zero_div]
    · rw [dot_sub_foot side, hb, mul_zero, zero_div]
    · rw [dot_sub_foot side]
      exact div_nonpos_of_nonpos_of_nonneg (mul_nonpos_of_nonpos_of_nonneg beyond.le ccw.le) side.le

end Hueplusplus.Plane
