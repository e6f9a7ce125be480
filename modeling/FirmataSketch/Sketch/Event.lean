import FirmataSketch.Catalog.Problem
import FirmataSketch.Sketch.Plan

/-! Events: what the builder tells about its work while it goes on. -/

namespace FirmataSketch

inductive Event where
  | problem (p : Problem)
  | resolved (p : Plan)
  | generated (filename : String) (features characters : Nat)
  | written (path : String)
  | served (filename : String) (features : List String)

namespace Event

inductive Level where
  | debug
  | info
  | warning
  deriving DecidableEq, Repr

def Level.name : Level → String
  | .debug => "DEBUG"
  | .info => "INFO"
  | .warning => "WARNING"

def level : Event → Level
  | .problem _ => .warning
  | .resolved _ => .debug
  | .generated .. => .info
  | .written _ => .info
  | .served .. => .info

def channel : Event → String
  | .problem _ => "firmatabuilder.catalog"
  | .resolved _ => "firmatabuilder.generator"
  | .generated .. => "firmatabuilder.generator"
  | .written _ => "firmatabuilder.persistence"
  | .served .. => "firmatabuilder.server"

def message : Event → String
  | .problem p => "Catalog problem: " ++ p.text
  | .resolved p =>
    "Resolved " ++ Text.decimal p.features.length ++ " features: capabilities=" ++
      (Value.list (p.sortedCapabilities.map fun c => .text c.name)).literal ++ " reporting=" ++
      (Value.list (p.reporting.map Feature.instanceName)).literal ++ " update=" ++
      (Value.list (p.update.map Feature.instanceName)).literal
  | .generated filename features characters =>
    "Generated " ++ filename ++ " (" ++ Text.decimal features ++ " features, " ++
      Text.decimal characters ++ " bytes)"
  | .written path => "Generated sketch written to " ++ path
  | .served filename features =>
    "Generated " ++ filename ++ " for " ++ (Value.list (features.map .text)).literal

def line (e : Event) : String := e.level.name ++ " " ++ e.channel ++ ": " ++ e.message

end Event

/-- The outcome of an operation after the events on the way to it. -/
structure Traced (α : Type) where
  events : List Event
  result : Except Failure α

namespace Traced

def ofExcept {α : Type} (r : Except Failure α) : Traced α := ⟨[], r⟩

def andThen {α β : Type} (t : Traced α) (f : α → Traced β) : Traced β :=
  match t.result with
  | .error e => ⟨t.events, .error e⟩
  | .ok a => ⟨t.events ++ (f a).events, (f a).result⟩

end Traced

end FirmataSketch
