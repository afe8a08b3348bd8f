import Konative.Lib.Codec

/-!
# The application's components

The three component types of the saved state, `AppStateComponents`, and their
`serialize()` functions.  `F` stands for `float`: nothing about saving or restoring
depends on what a float is, only on its taking part in the archive as a value of
fixed layout, which is the codec given for it.
-/

namespace Konative.App

/-- `glm::vec3`. -/
@[ext]
structure Vec3 (F : Type) where
  x : F
  y : F
  z : F
deriving DecidableEq, Repr

/-- `glm::quat`. -/
@[ext]
structure Quat (F : Type) where
  w : F
  x : F
  y : F
  z : F
deriving DecidableEq, Repr

/-- `spatial::Transform`. -/
@[ext]
structure Transform (F : Type) where
  position : Vec3 F
  rotation : Quat F
  scale : Vec3 F
deriving DecidableEq, Repr

/-- `app::PointerFollow`. -/
@[ext]
structure PointerFollow (F : Type) where
  target : Vec3 F
  approachRate : F
deriving DecidableEq, Repr

/-- `app::HeartbeatCounter`. -/
@[ext]
structure HeartbeatCounter where
  ticks : UInt64
deriving DecidableEq, Repr

variable {F : Type}

/-- The three coordinates in order. -/
def Vec3.codec (c : Codec F) : Codec (Vec3 F) :=
  (c.pair (c.pair c)).map (fun v ↦ ⟨v.1, v.2.1, v.2.2⟩) (fun v ↦ (v.x, v.y, v.z)) fun _ ↦ rfl

/-- `w` first. -/
def Quat.codec (c : Codec F) : Codec (Quat F) :=
  (c.pair (c.pair (c.pair c))).map (fun q ↦ ⟨q.1, q.2.1, q.2.2.1, q.2.2.2⟩)
    (fun q ↦ (q.w, q.x, q.y, q.z)) fun _ ↦ rfl

/-- `serialize(archive, transform)`: position, rotation, scale. -/
def Transform.codec (c : Codec F) : Codec (Transform F) :=
  ((Vec3.codec c).pair ((Quat.codec c).pair (Vec3.codec c))).map (fun t ↦ ⟨t.1, t.2.1, t.2.2⟩)
    (fun t ↦ (t.position, t.rotation, t.scale)) fun _ ↦ rfl

/-- `serialize(archive, follow)`: the target, then the rate. -/
def PointerFollow.codec (c : Codec F) : Codec (PointerFollow F) :=
  ((Vec3.codec c).pair c).map (fun p ↦ ⟨p.1, p.2⟩) (fun p ↦ (p.target, p.approachRate)) fun _ ↦ rfl

/-- `serialize(archive, counter)`. -/
def HeartbeatCounter.codec : Codec HeartbeatCounter :=
  Codec.u64.map HeartbeatCounter.mk HeartbeatCounter.ticks fun _ ↦ rfl

/-- The component types the application stores. -/
inductive AppComponent
  | heartbeatCounter
  | transform
  | pointerFollow
deriving DecidableEq, Repr

namespace AppComponent

/-- The values of a component type. -/
abbrev Value (F : Type) : AppComponent → Type
  | heartbeatCounter => HeartbeatCounter
  | transform => Transform F
  | pointerFollow => PointerFollow F

/-- The `serialize()` function of a component type. -/
def codec (c : Codec F) : ∀ i : AppComponent, Codec (i.Value F)
  | heartbeatCounter => HeartbeatCounter.codec
  | transform => Transform.codec c
  | pointerFollow => PointerFollow.codec c

end AppComponent

/-- `AppStateComponents`. -/
def appStateComponents : List AppComponent := [.heartbeatCounter, .transform, .pointerFollow]

theorem nodup_appStateComponents : appStateComponents.Nodup := by decide

theorem mem_appStateComponents (i : AppComponent) : i ∈ appStateComponents := by
  cases i <;> decide

/-- `kAppStateVersion`. -/
def appStateVersion : UInt32 := 2

end Konative.App
