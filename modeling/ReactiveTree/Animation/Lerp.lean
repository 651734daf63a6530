import ReactiveTree.Value.Basic

/-!
# Interpolation

The value at eased progress `t` between two values. `t` may leave [0, 1] for easings that
overshoot.
-/

namespace ReactiveTree.Lerp

def float (a b t : Float) : Float := a + (b - a) * t

def float32 (a b : Float32) (t : Float) : Float32 := a + (b - a) * t.toFloat32

def int (a b : Int64) (t : Float) : Int64 :=
  Number.clampInt64 (Number.nearest? (Number.ofInt64 a + Number.ofInt64 (b - a) * t))

def duration (a b : Int64) (t : Float) : Int64 :=
  a + Number.toInt64 (Number.ofInt64 (b - a) * t)

def channel (a b : UInt8) (t : Float) : UInt8 :=
  let low := Float.ofNat a.toNat
  let x := low + (Float.ofNat b.toNat - low) * t
  if x.isNaN then 0
  else if 255 ≤ x then 255
  else if x ≤ 0 then 0
  else UInt8.ofNat ((Number.nearest? x).getD 0).toNat

def color (a b : UInt32) (t : Float) : UInt32 :=
  let a := Color.channels a
  let b := Color.channels b
  Color.ofChannels
    { alpha := channel a.alpha b.alpha t
      red := channel a.red b.red t
      green := channel a.green b.green t
      blue := channel a.blue b.blue t }

/-- Numbers, colors and durations are interpolated, and two ints stay ints; other kinds,
or different kinds, jump to the target. -/
def value (a b : Value) (t : Float) : Value :=
  match a, b with
  | .int m, .int n => .int (int m n t)
  | .color c, .color d => .color (color c d t)
  | .duration m, .duration n => .duration (duration m n t)
  | a, b => if a.isNumber && b.isNumber then .float (float a.asFloat b.asFloat t) else b

end ReactiveTree.Lerp
