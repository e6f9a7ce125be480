import FirmataSketch.Proofs.Plan.Resolve
import FirmataSketch.Sketch.Blocks

/-! The code of the loop. It can be written for every resolved plan: a plan that has the scheduler
has a feature that provides it. -/

namespace FirmataSketch.Plan

open Sketch

variable {p : Plan}

/-- The statements that process the pending input. -/
def drainCode (p : Plan) : List Stmt :=
  match p.provider? .scheduler with
  | none => [.loopWhile available [.call protocol "processInput" []]]
  | some f =>
    [.loopWhile available [.call protocol "processInput" [], .when betweenMessages [.stop]],
     .when betweenMessages [.call f.instanceText "runTasks" []]]

/-- The statements of the loop. -/
def loopCode (p : Plan) : List Stmt :=
  (match p.provider? .digitalInput with
    | some f => [.call f.instanceText "report" [], .blank]
    | none => []) ++
    p.drainCode ++ [.blank] ++
    (if p.reportingEnabled then
      [.when ⟨Sketch.reporting, "elapsed", false⟩
        (p.reporting.map fun f => .call f.instanceText "report" []), .blank] else []) ++
    p.update.map fun f => .call f.instanceText "update" []

theorem Consistent.drain_eq (h : p.Consistent) : p.drain = .ok p.drainCode := by
  have hscheduler := h.provider?_isSome_iff .scheduler
  unfold drain drainCode
  cases hp : p.provider? .scheduler with
  | none =>
    have hnone : p.has .scheduler = false := by
      rw [hp] at hscheduler
      simpa using hscheduler
    rw [hnone]
    rfl
  | some f =>
    have hsome : p.has .scheduler = true := hscheduler.1 (by rw [hp]; rfl)
    rw [hsome]
    rfl

theorem mem_of_provider? {c : Capability} {f : Feature} (h : p.provider? c = some f) :
    f ∈ p.features := List.mem_of_find?_eq_some h

theorem Consistent.loop_eq (h : p.Consistent) : p.loop = .ok [.define "loop" p.loopCode] := by
  unfold loop loopBody
  rw [h.drain_eq]
  rfl

end FirmataSketch.Plan
