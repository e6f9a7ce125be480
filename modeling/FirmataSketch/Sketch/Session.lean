import FirmataSketch.Sketch.Blocks

/-! Sessions: plans under names, and the uses that are made of them one after the other. -/

namespace FirmataSketch

/-- A use of a plan: a block is written, or a dependency counts as included from then on. -/
inductive Use where
  | banner (filename : Value) (m : Clock.Moment)
  | includes
  | shared
  | reset
  | setup (baud : Option Value)
  | loop
  | mark (className : Value)

namespace Plan

def mark (p : Plan) (className : Value) : Except Misuse Plan := do
  let k ← className.key
  return if k.isAmong p.included then p else { p with included := className :: p.included }

def use (p : Plan) : Use → Except Misuse Sketch.Block × Plan
  | .banner filename m => (.ok (Sketch.bannerBlock filename m), p)
  | .includes => p.includes
  | .shared => (.ok p.shared, p)
  | .reset => (.ok p.resetBlock, p)
  | .setup baud => (.ok (p.setup baud), p)
  | .loop => (p.loop, p)
  | .mark className => match p.mark className with
    | .ok p => (.ok [], p)
    | .error m => (.error m, p)

end Plan

structure Session where
  plans : List (String × Plan) := []

namespace Session

def plan? (s : Session) (name : String) : Option Plan := s.plans.lookup name

def keep (s : Session) (name : String) (p : Plan) : Session :=
  ⟨(name, p) :: s.plans.filter (·.1 != name)⟩

def use (s : Session) (name : String) (u : Use) : Option (Except Misuse Sketch.Block × Session) :=
  (s.plan? name).map fun p => ((p.use u).1, s.keep name (p.use u).2)

end Session

end FirmataSketch
