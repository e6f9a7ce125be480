import FirmataSketch.Selection.Basic
import FirmataSketch.Sketch.Blocks
import FirmataSketch.Sketch.Event

/-! From a selection to the text of a sketch. -/

namespace FirmataSketch

/-- What a sketch is generated from. A draft need not be valid; without a baud there is no
connection. -/
structure Draft where
  filename : Value
  baud : Option Value
  features : List Value

def Selection.draft (s : Selection) : Draft :=
  ⟨.text s.filename, some (.int s.baud), s.features.map .text⟩

def Draft.sketchFilename (d : Draft) : String := d.filename.display ++ Settings.extension

structure Sketch where
  banner : Sketch.Block
  includes : Sketch.Block
  shared : Sketch.Block
  reset : Sketch.Block
  setup : Sketch.Block
  loop : Sketch.Block

namespace Sketch

def lines (s : Sketch) : List String :=
  s.banner.lines ++ s.includes.lines ++ s.shared.lines ++ s.reset.lines ++ s.setup.lines ++
    s.loop.lines

def text (s : Sketch) : String := Text.unlines s.lines

def ofPlan (p : Plan) (filename : Value) (baud : Option Value) (m : Clock.Moment) :
    Except Misuse Sketch := do
  let (includes, p) := p.includes
  return {
    banner := bannerBlock filename m
    includes := ← includes
    shared := p.shared
    reset := p.resetBlock
    setup := p.setup baud
    loop := ← p.loop }

end Sketch

/-- The sketch of a draft. Nothing is generated before all features are found. -/
def Draft.sketch (d : Draft) (index : Index) (clock : Clock) (time : Option Clock.Time) :
    Traced Sketch :=
  Traced.andThen (.ofExcept (Plan.resolve index d.features)) fun p =>
    ⟨[.resolved p], do
      let m ← (clock.momentOf time).mapError .time
      (Sketch.ofPlan p d.filename d.baud m).mapError .misuse⟩

def Draft.generate (d : Draft) (index : Index) (clock : Clock) (time : Option Clock.Time) :
    Traced String :=
  (d.sketch index clock time).andThen fun s =>
    ⟨[.generated d.sketchFilename d.features.length s.text.length], .ok s.text⟩

end FirmataSketch
