import FirmataSketch.Proofs.Sketch.Assembly
import FirmataSketch.Proofs.Sketch.LoopCode

/-! Instances: which of them the blocks of a sketch declare, register and use. -/

namespace FirmataSketch

namespace Sketch

/-- A call of a function of an object; a test is one too. -/
structure Call where
  target : String
  action : String
  args : List String

namespace Stmt

mutual

def calls : Stmt → List Call
  | .blank | .invoke _ | .stop => []
  | .call target action args => [⟨target, action, args⟩]
  | .loopWhile test body | .when test body => ⟨test.target, test.query, []⟩ :: callsAll body
  | .eachPin body => callsAll body
  | .pinKinds analog digital => callsAll analog ++ callsAll digital

def callsAll : List Stmt → List Call
  | [] => []
  | s :: ss => calls s ++ callsAll ss

end

theorem callsAll_append (ss ss' : List Stmt) :
    callsAll (ss ++ ss') = callsAll ss ++ callsAll ss' := by
  induction ss with
  | nil => rfl
  | cons s ss ih => rw [List.cons_append, callsAll, ih, callsAll, List.append_assoc]

theorem callsAll_map (fs : List Feature) (target : Feature → String) (action : String)
    (args : Feature → List String) :
    callsAll (fs.map fun f => .call (target f) action (args f)) =
      fs.map fun f => ⟨target f, action, args f⟩ := by
  induction fs with
  | nil => rfl
  | cons f fs ih => exact congrArg (⟨target f, action, args f⟩ :: ·) ih

end Stmt

namespace Call

def registered (c : Call) : List String := if c.action = "addFeature" then c.args else []

/-- The instances that a call uses. The protocol object is not one of them. -/
def used (c : Call) : List String :=
  if c.action = "addFeature" then c.target :: c.args
  else if c.action ∈ ["report", "update", "runTasks", "elapsed", "reset"] then [c.target]
  else []

end Call

namespace Item

def calls : Item → List Call
  | .define _ body => Stmt.callsAll body
  | _ => []

def declared : Item → List String
  | .declare _ instanceName => [instanceName]
  | _ => []

end Item

namespace Block

def calls (b : Block) : List Call := b.flatMap Item.calls

def registered (b : Block) : List String := b.calls.flatMap Call.registered

def used (b : Block) : List String := b.calls.flatMap Call.used

def declared (b : Block) : List String := b.flatMap Item.declared

theorem mem_declared {b : Block} {x : String} :
    x ∈ b.declared ↔ ∃ className, Item.declare className x ∈ b := by
  rw [declared, List.mem_flatMap]
  constructor
  · rintro ⟨i, hi, hx⟩
    cases i with
    | declare className instanceName =>
      rw [Item.declared, List.mem_singleton] at hx
      exact ⟨className, hx ▸ hi⟩
    | _ => cases hx
  · rintro ⟨className, hi⟩
    exact ⟨_, hi, List.mem_singleton_self x⟩

theorem declared_append (b b' : Block) : (b ++ b').declared = b.declared ++ b'.declared :=
  List.flatMap_append

theorem used_append (b b' : Block) : (b ++ b').used = b.used ++ b'.used := by
  rw [used, used, used, calls, List.flatMap_append, List.flatMap_append]
  rfl

end Block

end Sketch

namespace Plan

open Sketch

/-- The instances that a sketch declares, in order. -/
def instances (p : Plan) : List String :=
  p.features.map Feature.instanceText ++ [registry] ++
    if p.reportingEnabled then [Sketch.reporting] else []

theorem declared_featureBlock (f : Feature) (fresh : List Dependency) :
    (featureBlock f fresh).declared = [f.instanceText] := by
  have hheaders : Block.declared (fresh.map fun d => .include d.header) = [] := by
    rw [Block.declared, List.flatMap_map]
    exact List.flatMap_eq_nil_iff.2 fun _ _ => rfl
  rw [featureBlock, Block.declared_append, hheaders]
  rfl

theorem declared_featureBlocks {included included' : List Value} {fs : List Feature} {b : Block}
    (h : featureBlocks included fs = (.ok b, included')) :
    b.declared = fs.map Feature.instanceText := by
  obtain ⟨freshes, hsub, rfl⟩ := featureBlocks_ok h
  clear h
  induction hsub with
  | nil => rfl
  | cons _ _ ih =>
    rw [List.zipWith_cons_cons, List.flatten_cons, Block.declared_append, declared_featureBlock,
      ih]
    rfl

theorem declared_shared (p : Plan) :
    p.shared.declared = if p.reportingEnabled then [Sketch.reporting] else [] := by
  unfold shared
  rw [Block.declared_append]
  cases p.analogWrite <;> cases p.reportingEnabled <;> rfl

def registration (instanceName : String) : Call := ⟨registry, "addFeature", [instanceName]⟩

theorem calls_setup (p : Plan) (baud : Option Value) :
    (p.setup baud).calls =
      [⟨protocol, "setFirmwareVersion", ["FIRMATA_MAJOR_VERSION", "FIRMATA_MINOR_VERSION"]⟩] ++
      (if p.analogWrite then [⟨protocol, "attach", ["ANALOG_MESSAGE", "analogWriteCallback"]⟩]
        else []) ++
      p.features.map (fun f => registration f.instanceText) ++
      (if p.reportingEnabled then [registration Sketch.reporting] else []) ++
      [⟨protocol, "attach", ["SYSTEM_RESET", resetCallback]⟩] ++
      (match baud with
        | some b => [⟨protocol, "begin", [b.display]⟩]
        | none => []) := by
  have hfeatures := Stmt.callsAll_map p.features (fun _ => registry) "addFeature"
    fun f => [f.instanceText]
  have hbody : (p.setup baud).calls = Stmt.callsAll _ ++ [] := rfl
  rw [hbody]
  simp only [Stmt.callsAll_append]
  unfold register registration
  rw [hfeatures]
  -- only the calls for the features are many; all others are there or not
  cases p.analogWrite <;> cases p.reportingEnabled <;> cases baud <;>
    simp [Stmt.callsAll, Stmt.calls]

theorem registered_setup (p : Plan) (baud : Option Value) :
    (p.setup baud).registered =
      p.features.map Feature.instanceText ++
        if p.reportingEnabled then [Sketch.reporting] else [] := by
  have hfeatures : (p.features.map fun f => registration f.instanceText).flatMap
      Call.registered = p.features.map Feature.instanceText := by
    rw [List.flatMap_map]
    exact List.flatMap_pure_eq_map _ _
  rw [Block.registered, calls_setup]
  simp only [List.flatMap_append, hfeatures]
  cases p.analogWrite <;> cases p.reportingEnabled <;> cases baud <;>
    simp [Call.registered, registration]

theorem mem_instances_of_feature {p : Plan} {f : Feature} (h : f ∈ p.features) :
    f.instanceText ∈ p.instances := by
  simp only [instances, List.mem_append]
  exact .inl (.inl (List.mem_map_of_mem h))

theorem registry_mem_instances (p : Plan) : registry ∈ p.instances := by
  simp [instances]

theorem reporting_mem_instances {p : Plan} (h : p.reportingEnabled = true) :
    Sketch.reporting ∈ p.instances := by
  simp [instances, h]

theorem used_setup (p : Plan) (baud : Option Value) :
    (p.setup baud).used =
      p.features.flatMap (fun f => [registry, f.instanceText]) ++
        if p.reportingEnabled then [registry, Sketch.reporting] else [] := by
  have hfeatures : (p.features.map fun f => registration f.instanceText).flatMap Call.used =
      p.features.flatMap fun f => [registry, f.instanceText] := by
    rw [List.flatMap_map]
    rfl
  rw [Block.used, calls_setup]
  simp only [List.flatMap_append, hfeatures]
  cases p.analogWrite <;> cases p.reportingEnabled <;> cases baud <;>
    simp [Call.used, registration]

theorem used_setup_subset (p : Plan) (baud : Option Value) : (p.setup baud).used ⊆ p.instances := by
  intro x hx
  rw [used_setup, List.mem_append] at hx
  rcases hx with hx | hx
  · obtain ⟨f, hf, hx⟩ := List.mem_flatMap.1 hx
    rcases List.mem_cons.1 hx with rfl | hx
    · exact registry_mem_instances p
    · exact List.mem_singleton.1 hx ▸ mem_instances_of_feature hf
  · split at hx
    next hr =>
      rcases List.mem_cons.1 hx with rfl | hx
      · exact registry_mem_instances p
      · exact List.mem_singleton.1 hx ▸ reporting_mem_instances hr
    next => cases hx

theorem used_reset {p : Plan} {x : String} (h : x ∈ p.resetBlock.used) : x ∈ p.instances := by
  have hreset : p.resetBlock.used = [registry] := by
    unfold resetBlock
    cases p.has .analogInput <;> cases p.has .digitalOutput <;> rfl
  rw [hreset, List.mem_singleton] at h
  exact h ▸ registry_mem_instances p

theorem used_feature_calls {p : Plan} {fs : List Feature} {action : String} {x : String}
    (hfs : fs ⊆ p.features) (ha : action ≠ "addFeature")
    (h : x ∈ (Stmt.callsAll (fs.map fun f => .call f.instanceText action [])).flatMap Call.used) :
    x ∈ p.instances := by
  rw [Stmt.callsAll_map fs Feature.instanceText action fun _ => [], List.mem_flatMap] at h
  obtain ⟨c, hc, hx⟩ := h
  obtain ⟨f, hf, rfl⟩ := List.mem_map.1 hc
  have hx' : x = f.instanceText := by
    rw [Call.used, if_neg ha] at hx
    split at hx
    · exact List.mem_singleton.1 hx
    · cases hx
  exact hx' ▸ mem_instances_of_feature (hfs hf)

theorem Consistent.used_loop {p : Plan} (h : p.Consistent) {x : String}
    (hx : x ∈ Block.used [.define "loop" p.loopCode]) : x ∈ p.instances := by
  have hbody : Block.used [.define "loop" p.loopCode] =
      (Stmt.callsAll p.loopCode).flatMap Call.used := by
    simp [Block.used, Block.calls, Item.calls]
  rw [hbody] at hx
  simp only [loopCode, Stmt.callsAll_append, List.flatMap_append, List.mem_append, or_assoc] at hx
  -- the parts of the loop in their order: digital input, pending input, a blank, reports, updates
  rcases hx with hx | hx | hx | hx | hx
  · cases hp : p.provider? .digitalInput with
    | none => rw [hp] at hx; cases hx
    | some f =>
      rw [hp] at hx
      have hx' : x = f.instanceText := List.mem_singleton.1 hx
      exact hx' ▸ mem_instances_of_feature (mem_of_provider? hp)
  · unfold drainCode at hx
    cases hp : p.provider? .scheduler with
    | none => rw [hp] at hx; cases hx
    | some f =>
      rw [hp] at hx
      have hx' : x = f.instanceText := List.mem_singleton.1 hx
      exact hx' ▸ mem_instances_of_feature (mem_of_provider? hp)
  · cases hx
  · split at hx
    next hr =>
      have hbody' : Stmt.callsAll [.when ⟨Sketch.reporting, "elapsed", false⟩
          (p.reporting.map fun f => .call f.instanceText "report" []), .blank] =
          ⟨Sketch.reporting, "elapsed", []⟩ ::
            Stmt.callsAll (p.reporting.map fun f => .call f.instanceText "report" []) := by
        simp [Stmt.callsAll, Stmt.calls]
      rw [hbody', List.flatMap_cons, List.mem_append] at hx
      rcases hx with hx | hx
      · have hx' : x = Sketch.reporting := List.mem_singleton.1 hx
        exact hx' ▸ reporting_mem_instances hr
      · exact used_feature_calls h.reporting_subset (by decide) hx
    next => cases hx
  · exact used_feature_calls h.update_subset (by decide) hx

end Plan

end FirmataSketch
