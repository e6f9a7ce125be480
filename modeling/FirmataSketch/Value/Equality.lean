import FirmataSketch.Value.Basic

/-! Equality of values can be decided: by their kinds and, for lists and records, part by part. -/

namespace FirmataSketch.Value

mutual

/-- Whether two values are the same, with the fields of records in the same order. -/
def isSame : Value → Value → Bool
  | .null, .null => true
  | .bool a, .bool b => a == b
  | .int a, .int b => a == b
  | .real x, .real y => x == y
  | .text s, .text t => s == t
  | .list vs, .list ws => areSame vs ws
  | .record fs, .record gs => areSameFields fs gs
  | _, _ => false

def areSame : List Value → List Value → Bool
  | [], [] => true
  | v :: vs, w :: ws => isSame v w && areSame vs ws
  | _, _ => false

def areSameFields : List (String × Value) → List (String × Value) → Bool
  | [], [] => true
  | f :: fs, g :: gs => f.1 == g.1 && isSame f.2 g.2 && areSameFields fs gs
  | _, _ => false

end

mutual

theorem isSame_iff : (v w : Value) → (isSame v w = true ↔ v = w)
  | .null, w | .bool _, w | .int _, w | .real _, w | .text _, w => by cases w <;> simp [isSame]
  | .list vs, w => by cases w <;> simp [isSame, areSame_iff vs]
  | .record fs, w => by cases w <;> simp [isSame, areSameFields_iff fs]

theorem areSame_iff : (vs ws : List Value) → (areSame vs ws = true ↔ vs = ws)
  | [], ws => by cases ws <;> simp [areSame]
  | v :: vs, ws => by cases ws <;> simp [areSame, isSame_iff v, areSame_iff vs]

theorem areSameFields_iff :
    (fs gs : List (String × Value)) → (areSameFields fs gs = true ↔ fs = gs)
  | [], gs => by cases gs <;> simp [areSameFields]
  | (name, v) :: fs, gs => by
    cases gs <;> simp [areSameFields, isSame_iff v, areSameFields_iff fs, Prod.ext_iff]

end

instance : DecidableEq Value := fun v w => decidable_of_iff _ (isSame_iff v w)

end FirmataSketch.Value
