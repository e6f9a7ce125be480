import FirmataSketch.Main
import FirmataSketch.Sketch.Session
import FirmataSketch.Web.Answer
import FirmataSketch.Web.Server
import FirmataSketch.Proofs.Plan.Resolve
import FirmataSketch.Proofs.Code.Reader
import FirmataSketch.Proofs.Code.Board
import FirmataSketch.Proofs.Sketch.LoopPass
import FirmataSketch.Proofs.Sketch.Assembly
import FirmataSketch.Proofs.Text.Lines
import FirmataSketch.Proofs.Sketch.BlockLines
import FirmataSketch.Proofs.Sketch.Instances
import FirmataSketch.Proofs.Sketch.Presence
import FirmataSketch.Proofs.Sketch.Declaration
import FirmataSketch.Proofs.Catalog.Uniqueness
import FirmataSketch.Proofs.Catalog.Loading
import FirmataSketch.Proofs.Sketch.Globals
import FirmataSketch.Proofs.Sketch.Growth
import FirmataSketch.Proofs.Sketch.Libraries
import FirmataSketch.Proofs.Command.Setting
import FirmataSketch.Proofs.Command.Invocation
import FirmataSketch.Proofs.Selection.Made
import FirmataSketch.Proofs.Disk.SketchPath
import FirmataSketch.Proofs.Sketch.Drawing
import FirmataSketch.Proofs.Command.Run
import FirmataSketch.Proofs.Web.Answer
import FirmataSketch.Proofs.FrontEnds
import FirmataSketch.Proofs.Sketch.Reordering
import FirmataSketch.Proofs.Sketch.Decoding
import FirmataSketch.Proofs.Command.Steps
import FirmataSketch.Proofs.Sketch.Banner
import FirmataSketch.Proofs.SketchNames
import FirmataSketch.Proofs.Messages
import FirmataSketch.Proofs.Sketch.Characters
import FirmataSketch.Proofs.Sketch.Headers
import FirmataSketch.Proofs.Command.AllOrNothing
import FirmataSketch.Proofs.Command.Endings
import FirmataSketch.Proofs.Plan.FirstFault
import FirmataSketch.Proofs.Sketch.Uses
import FirmataSketch.Proofs.Sketch.Sessions
import FirmataSketch.Proofs.Web.Replies
import FirmataSketch.Proofs.Catalog.Clashes
import FirmataSketch.Proofs.Catalog.RepeatedNames
import FirmataSketch.Proofs.Catalog.Checks
import FirmataSketch.Proofs.Catalog.Accounting
import FirmataSketch.Proofs.Selection.NormalForm
import FirmataSketch.Proofs.Sketch.NeededHeaders
import FirmataSketch.Proofs.Field
import FirmataSketch.Proofs.Selection.Grammar
import FirmataSketch.Proofs.Feature.NormalForm
import FirmataSketch.Proofs.Feature.Grammar
import FirmataSketch.Proofs.Disk.Storing
import FirmataSketch.Proofs.Sketch.Emission
import FirmataSketch.Proofs.Sketch.Layout
import FirmataSketch.Proofs.Command.Overrides
import FirmataSketch.Proofs.Clock.Stamp
