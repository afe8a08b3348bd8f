import Konative.App.FollowerMotion
import Konative.Lib.Rotation

/-!
# The matrix of a transform

`to_matrix` composes the position, the rotation and the scale of a transform into one
matrix.  In exact real arithmetic it takes a point through the scale, the rotation and the
translation, in this order; the order shows as soon as the scale is not the same along all
three axes.

GLM is not part of the repository.  Its operations are a parameter, and what is relied on
is that they are the standard ones: column-major matrices, applied from the left.
-/

namespace Konative.Spatial

open App Quaternion

variable {F : Type}

/-- `glm::vec4`. -/
@[ext]
structure Vec4 (F : Type) where
  x : F
  y : F
  z : F
  w : F
deriving DecidableEq, Repr

/-- `glm::mat4`, by its columns. -/
@[ext]
structure Mat4 (F : Type) where
  c₀ : Vec4 F
  c₁ : Vec4 F
  c₂ : Vec4 F
  c₃ : Vec4 F
deriving DecidableEq, Repr

/-! ## The operations of GLM -/

/-- The operations of GLM that build matrices and apply them. -/
structure Glm (F : Type) where
  /-- `glm::mat4(s)`: `s` along the diagonal. -/
  mat4 : F → Mat4 F
  translate : Mat4 F → Vec3 F → Mat4 F
  scale : Mat4 F → Vec3 F → Mat4 F
  mat4Cast : Quat F → Mat4 F
  /-- The product of two matrices. -/
  mul : Mat4 F → Mat4 F → Mat4 F
  /-- The product of a matrix and a column. -/
  apply : Mat4 F → Vec4 F → Vec4 F

/-- The operations of GLM are the standard ones. -/
structure Glm.Standard (g : Glm ℝ) : Prop where
  translate : ∀ v : Vec3 ℝ, g.translate (g.mat4 1) v =
    ⟨⟨1, 0, 0, 0⟩, ⟨0, 1, 0, 0⟩, ⟨0, 0, 1, 0⟩, ⟨v.x, v.y, v.z, 1⟩⟩
  scale : ∀ v : Vec3 ℝ, g.scale (g.mat4 1) v =
    ⟨⟨v.x, 0, 0, 0⟩, ⟨0, v.y, 0, 0⟩, ⟨0, 0, v.z, 0⟩, ⟨0, 0, 0, 1⟩⟩
  mat4Cast : ∀ q : Quat ℝ, g.mat4Cast q =
    ⟨⟨1 - 2 * (q.y * q.y + q.z * q.z), 2 * (q.x * q.y + q.w * q.z),
        2 * (q.x * q.z - q.w * q.y), 0⟩,
      ⟨2 * (q.x * q.y - q.w * q.z), 1 - 2 * (q.x * q.x + q.z * q.z),
        2 * (q.y * q.z + q.w * q.x), 0⟩,
      ⟨2 * (q.x * q.z + q.w * q.y), 2 * (q.y * q.z - q.w * q.x),
        1 - 2 * (q.x * q.x + q.y * q.y), 0⟩,
      ⟨0, 0, 0, 1⟩⟩
  /-- The columns of a product are the columns of the second factor, each taken through
  the first. -/
  mul : ∀ a b : Mat4 ℝ,
    g.mul a b = ⟨g.apply a b.c₀, g.apply a b.c₁, g.apply a b.c₂, g.apply a b.c₃⟩
  apply : ∀ (m : Mat4 ℝ) (v : Vec4 ℝ), g.apply m v =
    ⟨m.c₀.x * v.x + m.c₁.x * v.y + m.c₂.x * v.z + m.c₃.x * v.w,
      m.c₀.y * v.x + m.c₁.y * v.y + m.c₂.y * v.z + m.c₃.y * v.w,
      m.c₀.z * v.x + m.c₁.z * v.y + m.c₂.z * v.z + m.c₃.z * v.w,
      m.c₀.w * v.x + m.c₁.w * v.y + m.c₂.w * v.z + m.c₃.w * v.w⟩

/-! ## `to_matrix` -/

/-- `to_matrix(transform)`. -/
def toMatrix (o : FloatOps F) (g : Glm F) (transform : Transform F) : Mat4 F :=
  let translation := g.translate (g.mat4 (o.ofInt 1)) transform.position
  let rotation := g.mat4Cast transform.rotation
  let scale := g.scale (g.mat4 (o.ofInt 1)) transform.scale
  g.mul (g.mul translation rotation) scale

/-! ## What the matrix does to a point -/

/-- `glm::vec4{v, 1}`. -/
def point (v : Vec3 ℝ) : Vec4 ℝ := ⟨v.x, v.y, v.z, 1⟩

/-- A rotation as a quaternion. -/
def ofQuat (q : Quat ℝ) : ℍ[ℝ] := ⟨q.w, q.x, q.y, q.z⟩

/-- A vector as a quaternion without a real part. -/
def ofVec3 (v : Vec3 ℝ) : ℍ[ℝ] := ⟨0, v.x, v.y, v.z⟩

/-- `scale * v`, component by component. -/
def scaled (scale v : Vec3 ℝ) : Vec3 ℝ := ⟨scale.x * v.x, scale.y * v.y, scale.z * v.z⟩

/-- `v`, turned by a rotation. -/
noncomputable def turned (q : Quat ℝ) (v : Vec3 ℝ) : Vec3 ℝ :=
  ⟨(turn (ofQuat q) (ofVec3 v)).imI, (turn (ofQuat q) (ofVec3 v)).imJ,
    (turn (ofQuat q) (ofVec3 v)).imK⟩

namespace Glm.Standard

variable {g : Glm ℝ} (hg : g.Standard)

include hg

/-- A product of matrices does what its factors do, the second one first. -/
theorem apply_mul (a b : Mat4 ℝ) (v : Vec4 ℝ) :
    g.apply (g.mul a b) v = g.apply a (g.apply b v) := by
  rw [hg.mul]
  simp only [hg.apply]
  ext
  · ring
  · ring
  · ring
  · ring

theorem apply_translate (v p : Vec3 ℝ) :
    g.apply (g.translate (g.mat4 1) v) (point p) = point ⟨v.x + p.x, v.y + p.y, v.z + p.z⟩ := by
  rw [hg.translate, hg.apply, point, point]
  ext <;> ring

theorem apply_scale (v p : Vec3 ℝ) :
    g.apply (g.scale (g.mat4 1) v) (point p) = point (scaled v p) := by
  rw [hg.scale, hg.apply, point, point, scaled]
  ext <;> ring

/-- The matrix of a unit quaternion turns by it. -/
theorem apply_mat4Cast {q : Quat ℝ} (hq : normSq (ofQuat q) = 1) (p : Vec3 ℝ) :
    g.apply (g.mat4Cast q) (point p) = point (turned q p) := by
  rw [hg.mat4Cast, hg.apply, point, point, turned, imI_turn hq, imJ_turn hq, imK_turn hq, ofQuat,
    ofVec3]
  ext
  · ring
  · ring
  · ring
  · ring

/-- The scale, then the rotation, then the translation. -/
theorem apply_toMatrix {t : Transform ℝ} (hq : normSq (ofQuat t.rotation) = 1) (p : Vec3 ℝ) :
    g.apply (toMatrix .real g t) (point p) =
      point ⟨t.position.x + (turned t.rotation (scaled t.scale p)).x,
        t.position.y + (turned t.rotation (scaled t.scale p)).y,
        t.position.z + (turned t.rotation (scaled t.scale p)).z⟩ := by
  have hone : FloatOps.real.ofInt 1 = (1 : ℝ) := Int.cast_one
  rw [toMatrix, hone, hg.apply_mul, hg.apply_mul, hg.apply_scale, hg.apply_mat4Cast hq,
    hg.apply_translate]

/-- The origin goes to the position, whatever the rotation. -/
theorem apply_toMatrix_origin (t : Transform ℝ) :
    g.apply (toMatrix .real g t) (point ⟨0, 0, 0⟩) = point t.position := by
  have hone : FloatOps.real.ofInt 1 = (1 : ℝ) := Int.cast_one
  have horigin : g.apply (g.mat4Cast t.rotation) (point ⟨0, 0, 0⟩) = point ⟨0, 0, 0⟩ := by
    rw [hg.mat4Cast, hg.apply, point]
    ext <;> simp
  rw [toMatrix, hone, hg.apply_mul, hg.apply_mul, hg.apply_scale, scaled, mul_zero, mul_zero,
    mul_zero, horigin, hg.apply_translate, add_zero, add_zero, add_zero]

end Glm.Standard

/-! ## Vectors as quaternions -/

/-- Turning a vector gives a vector again. -/
theorem ofVec3_turned {q : Quat ℝ} (hq : normSq (ofQuat q) = 1) (v : Vec3 ℝ) :
    ofVec3 (turned q v) = turn (ofQuat q) (ofVec3 v) := by
  ext
  · rw [re_turn hq]
    rfl
  · rfl
  · rfl
  · rfl

theorem ofVec3_add (u v : Vec3 ℝ) :
    ofVec3 ⟨u.x + v.x, u.y + v.y, u.z + v.z⟩ = ofVec3 u + ofVec3 v := by
  ext
  · exact (add_zero 0).symm
  · rfl
  · rfl
  · rfl

theorem dist_ofVec3 (u v : Vec3 ℝ) : dist (ofVec3 u) (ofVec3 v) = u.distance v := by
  rw [dist_eq_norm, norm_eq_sqrt_real_inner, inner_self, normSq_def', Vec3.distance]
  congr 1
  show (0 - 0) ^ 2 + (u.x - v.x) ^ 2 + (u.y - v.y) ^ 2 + (u.z - v.z) ^ 2 = _
  ring

/-! ## The law of `to_matrix` -/

/-- What the matrix of a transform does to the points of the space. -/
structure Places (g : Glm ℝ) (t : Transform ℝ) : Prop where
  /-- For a unit quaternion: the scale, then the rotation, then the translation. -/
  point : normSq (ofQuat t.rotation) = 1 → ∀ p, ∃ r,
    g.apply (toMatrix .real g t) (point p) = Spatial.point r ∧
      ofVec3 r = ofVec3 t.position +
        ofQuat t.rotation * ofVec3 (scaled t.scale p) * (ofQuat t.rotation)⁻¹
  /-- Without a scale it keeps the distance of any two points. -/
  distance : normSq (ofQuat t.rotation) = 1 → t.scale = ⟨1, 1, 1⟩ → ∀ p p', ∃ r r',
    g.apply (toMatrix .real g t) (Spatial.point p) = Spatial.point r ∧
      g.apply (toMatrix .real g t) (Spatial.point p') = Spatial.point r' ∧
      r.distance r' = p.distance p'
  /-- The origin goes to the position. -/
  origin : g.apply (toMatrix .real g t) (Spatial.point ⟨0, 0, 0⟩) = Spatial.point t.position

/-- `to_matrix` is scale, then rotate, then translate. -/
theorem places_toMatrix {g : Glm ℝ} (hg : g.Standard) (t : Transform ℝ) : Places g t := by
  -- where a point goes, in the words of the quaternions
  have hpoint (hq : normSq (ofQuat t.rotation) = 1) (p : Vec3 ℝ) : ∃ r,
      g.apply (toMatrix .real g t) (point p) = point r ∧
        ofVec3 r = ofVec3 t.position + turn (ofQuat t.rotation) (ofVec3 (scaled t.scale p)) := by
    refine ⟨_, hg.apply_toMatrix hq p, ?_⟩
    rw [ofVec3_add, ofVec3_turned hq]
  constructor
  · exact hpoint
  · intro hq hscale p p'
    have hscaled (v : Vec3 ℝ) : scaled t.scale v = v := by
      rw [hscale, scaled, one_mul, one_mul, one_mul]
    obtain ⟨r, hr, hturn⟩ := hpoint hq p
    obtain ⟨r', hr', hturn'⟩ := hpoint hq p'
    refine ⟨r, r', hr, hr', ?_⟩
    rw [← dist_ofVec3, hturn, hturn', dist_add_turn (ne_zero_of_normSq hq), hscaled, hscaled,
      dist_ofVec3]
  · exact hg.apply_toMatrix_origin t

/-! ## GLM as it computes -/

section Computed

variable (o : FloatOps F)

/-- The product of a column and a number. -/
def Vec4.mul (v : Vec4 F) (s : F) : Vec4 F := ⟨o.mul v.x s, o.mul v.y s, o.mul v.z s, o.mul v.w s⟩

def Vec4.add (u v : Vec4 F) : Vec4 F :=
  ⟨o.add u.x v.x, o.add u.y v.y, o.add u.z v.z, o.add u.w v.w⟩

/-- `m[0] * x + m[1] * y + m[2] * z`. -/
def Mat4.span (m : Mat4 F) (x y z : F) : Vec4 F :=
  ((m.c₀.mul o x).add o (m.c₁.mul o y)).add o (m.c₂.mul o z)

/-- The operations of GLM over any operations on `float`. -/
def Glm.ofFloat : Glm F where
  mat4 s := ⟨⟨s, o.ofInt 0, o.ofInt 0, o.ofInt 0⟩, ⟨o.ofInt 0, s, o.ofInt 0, o.ofInt 0⟩,
    ⟨o.ofInt 0, o.ofInt 0, s, o.ofInt 0⟩, ⟨o.ofInt 0, o.ofInt 0, o.ofInt 0, s⟩⟩
  translate m v := { m with c₃ := (m.span o v.x v.y v.z).add o m.c₃ }
  scale m v := ⟨m.c₀.mul o v.x, m.c₁.mul o v.y, m.c₂.mul o v.z, m.c₃⟩
  mat4Cast q :=
    let twice (a : F) : F := o.mul (o.ofInt 2) a
    let but (a : F) : F := o.sub (o.ofInt 1) (twice a)
    let xx := o.mul q.x q.x
    let yy := o.mul q.y q.y
    let zz := o.mul q.z q.z
    let xz := o.mul q.x q.z
    let xy := o.mul q.x q.y
    let yz := o.mul q.y q.z
    let wx := o.mul q.w q.x
    let wy := o.mul q.w q.y
    let wz := o.mul q.w q.z
    ⟨⟨but (o.add yy zz), twice (o.add xy wz), twice (o.sub xz wy), o.ofInt 0⟩,
      ⟨twice (o.sub xy wz), but (o.add xx zz), twice (o.add yz wx), o.ofInt 0⟩,
      ⟨twice (o.add xz wy), twice (o.sub yz wx), but (o.add xx yy), o.ofInt 0⟩,
      ⟨o.ofInt 0, o.ofInt 0, o.ofInt 0, o.ofInt 1⟩⟩
  mul a b :=
    let column (v : Vec4 F) : Vec4 F := (a.span o v.x v.y v.z).add o (a.c₃.mul o v.w)
    ⟨column b.c₀, column b.c₁, column b.c₂, column b.c₃⟩
  apply m v := (m.span o v.x v.y v.z).add o (m.c₃.mul o v.w)

end Computed

/-- Without rounding they are the standard ones. -/
theorem Glm.standard_real : (Glm.ofFloat FloatOps.real).Standard := by
  have hzero : FloatOps.real.ofInt 0 = (0 : ℝ) := Int.cast_zero
  have hone : FloatOps.real.ofInt 1 = (1 : ℝ) := Int.cast_one
  have htwo : FloatOps.real.ofInt 2 = (2 : ℝ) := Int.cast_ofNat 2
  constructor
  · intro v
    simp only [Glm.ofFloat, Mat4.span, Vec4.mul, Vec4.add, hzero]
    simp [FloatOps.real]
  · intro v
    simp only [Glm.ofFloat, Vec4.mul, hzero]
    simp [FloatOps.real]
  · intro q
    simp only [Glm.ofFloat, hzero, hone, htwo]
    rfl
  · intro a b
    rfl
  · intro m v
    rfl

/-- A turn about the second axis, after a scale that is not the same along all three, and the
same turn without a scale. -/
theorem places_toMatrix_turn :
    (∃ r, (Glm.ofFloat .real).apply
        (toMatrix .real (.ofFloat .real) ⟨⟨10, 0, 0⟩, ⟨3 / 5, 0, 4 / 5, 0⟩, ⟨2, 3, 4⟩⟩)
        (point ⟨1, 1, 1⟩) = point r ∧
      ofVec3 r = ofVec3 ⟨10, 0, 0⟩ + ofQuat ⟨3 / 5, 0, 4 / 5, 0⟩ *
        ofVec3 (scaled ⟨2, 3, 4⟩ ⟨1, 1, 1⟩) * (ofQuat ⟨3 / 5, 0, 4 / 5, 0⟩)⁻¹) ∧
    ∃ r r', (Glm.ofFloat .real).apply
        (toMatrix .real (.ofFloat .real) ⟨⟨10, 0, 0⟩, ⟨3 / 5, 0, 4 / 5, 0⟩, ⟨1, 1, 1⟩⟩)
        (point ⟨1, 0, 0⟩) = point r ∧
      (Glm.ofFloat .real).apply
        (toMatrix .real (.ofFloat .real) ⟨⟨10, 0, 0⟩, ⟨3 / 5, 0, 4 / 5, 0⟩, ⟨1, 1, 1⟩⟩)
        (point ⟨0, 1, 0⟩) = point r' ∧
      r.distance r' = Vec3.distance ⟨1, 0, 0⟩ ⟨0, 1, 0⟩ := by
  have hunit : normSq (ofQuat ⟨3 / 5, 0, 4 / 5, 0⟩) = 1 := by
    rw [normSq_def', ofQuat]
    norm_num
  constructor
  · exact (places_toMatrix Glm.standard_real ⟨⟨10, 0, 0⟩, ⟨3 / 5, 0, 4 / 5, 0⟩, ⟨2, 3, 4⟩⟩).point
      hunit ⟨1, 1, 1⟩
  · exact (places_toMatrix Glm.standard_real
      ⟨⟨10, 0, 0⟩, ⟨3 / 5, 0, 4 / 5, 0⟩, ⟨1, 1, 1⟩⟩).distance hunit rfl ⟨1, 0, 0⟩ ⟨0, 1, 0⟩

end Konative.Spatial
