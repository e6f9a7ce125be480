import FirmataSketch.Proofs.Catalog.ShippedIndex
import FirmataSketch.Proofs.Code.Board
import FirmataSketch.Proofs.Code.Reader
import FirmataSketch.Proofs.Sketch.LoopCode

/-! One pass of the loop. The text of the loop is read as code and run on a board: what is done, and
in which order, follows from the selected features, the pending input, the parser and the timer. -/

namespace FirmataSketch.Sketch

universe u v
variable {S : Type u} {U : Type v}

namespace Runtime

def after (r : Runtime S U) (s : S) (units : List U) : S := units.foldl r.consume s

/-- The units up to the first one that leaves the parser between messages, or all if none does. -/
def message (r : Runtime S U) (s : S) : List U → List U
  | [] => []
  | unit :: units =>
    if r.midMessage (r.consume s unit) then unit :: r.message (r.consume s unit) units else [unit]

/-- The units that one pass processes: a scheduler gets its turn after a message. -/
def taken (r : Runtime S U) (fs : List Feature) (s : S) (queue : List U) : List U :=
  if fs.any (·.capability == some .scheduler) then r.message s queue else queue

def calls (fs : List Feature) (action : String) : List (Act U) :=
  fs.map fun f => .called f.instanceText action

/-- What one pass does for the given features. -/
def passTrace (r : Runtime S U) (fs : List Feature) (s : S) (queue : List U) : List (Act U) :=
  let provider (c : Capability) : List Feature := (fs.find? (·.capability == some c)).toList
  calls (provider .digitalInput) "report" ++ (r.taken fs s queue).map .processed ++
    (if r.midMessage (r.after s (r.taken fs s queue)) then []
      else calls (provider .scheduler) "runTasks") ++
    (if r.elapsed then calls (fs.filter (·.reporting)) "report" else []) ++
    calls (fs.filter (·.update)) "update"

/-- The board after one pass that began with an empty trace. -/
def passEnd (r : Runtime S U) (fs : List Feature) (s : S) (queue : List U) : Machine S U where
  queue := queue.drop (r.taken fs s queue).length
  parser := r.after s (r.taken fs s queue)
  trace := r.passTrace fs s queue

end Runtime

/-- The units of a message keep the parser within it, but for the last of them. -/
theorem midMessage_of_prefix {r : Runtime S U} {s : S} {queue us vs : List U} {unit : U}
    (h : r.message s queue = us ++ unit :: vs) (hv : vs ≠ []) :
    r.midMessage (r.after s (us ++ [unit])) = true := by
  induction queue generalizing s us with
  | nil => simp [Runtime.message] at h
  | cons a queue ih =>
    rw [Runtime.message] at h
    split at h
    next hmid =>
      cases us with
      | nil =>
        rw [List.nil_append, List.cons.injEq] at h
        simpa [Runtime.after, h.1] using hmid
      | cons b us =>
        rw [List.cons_append, List.cons.injEq] at h
        have := ih h.2
        simpa [Runtime.after, h.1] using this
    next =>
      cases us with
      | nil => exact absurd (List.cons.inj h).2.symm hv
      | cons b us => simp at h

/-- Unless a message takes the whole queue, it leaves the parser between messages. -/
theorem message_boundary {r : Runtime S U} {s : S} {queue : List U} :
    r.message s queue <+: queue ∧
      (r.message s queue = queue ∨ r.midMessage (r.after s (r.message s queue)) = false) := by
  induction queue generalizing s with
  | nil => exact ⟨List.prefix_rfl, .inl rfl⟩
  | cons a queue ih =>
    rw [Runtime.message]
    split
    next =>
      obtain ⟨hpre, hend⟩ := ih (s := r.consume s a)
      refine ⟨(List.prefix_cons_inj a).2 hpre, hend.imp (congrArg _) id⟩
    next hmid => exact ⟨⟨queue, rfl⟩, .inr (by simpa [Runtime.after] using hmid)⟩

theorem runs_calls (r : Runtime S U) (action : String)
    (ha : action ∈ ["report", "update", "runTasks"]) (fs : List Feature) (m : Machine S U) :
    Runs r (fs.map fun f => .call f.instanceText action []) m .finished
      { m with trace := m.trace ++ Runtime.calls fs action } := by
  induction fs generalizing m with
  | nil =>
    have hm : { m with trace := m.trace ++ Runtime.calls [] action } = m := by
      simp [Runtime.calls]
    rw [hm]
    exact .nil
  | cons f fs ih =>
    -- no feature processes input, whatever it is called
    have hinput : action ≠ "processInput" := by rintro rfl; revert ha; decide
    have hf : r.perform? m f.instanceText action =
        some { m with trace := m.trace ++ [.called f.instanceText action] } := by
      simp only [Runtime.perform?, hinput, and_false, if_false, if_pos ha]
    have htrace : m.trace ++ Runtime.calls (f :: fs) action =
        m.trace ++ [.called f.instanceText action] ++ Runtime.calls fs action := by
      simp [Runtime.calls]
    rw [htrace]
    exact .call hf (ih _)

theorem perform_input (r : Runtime S U) (unit : U) (queue : List U) (s : S)
    (trace : List (Act U)) :
    r.perform? ⟨unit :: queue, s, trace⟩ protocol "processInput" =
      some ⟨queue, r.consume s unit, trace ++ [.processed unit]⟩ := rfl

theorem ask_available (r : Runtime S U) (m : Machine S U) :
    r.ask? m Plan.available = some !m.queue.isEmpty := by
  simp [Runtime.ask?, Runtime.answer?, Plan.available]

theorem ask_betweenMessages (r : Runtime S U) (m : Machine S U) :
    r.ask? m Plan.betweenMessages = some !r.midMessage m.parser := by
  simp [Runtime.ask?, Runtime.answer?, Plan.betweenMessages]

theorem ask_elapsed (r : Runtime S U) (m : Machine S U) :
    r.ask? m ⟨reporting, "elapsed", false⟩ = some r.elapsed := by
  simp [Runtime.ask?, Runtime.answer?]

theorem runs_drain_all (r : Runtime S U) (queue : List U) (s : S) (trace : List (Act U)) :
    Runs r [.loopWhile Plan.available [.call protocol "processInput" []]] ⟨queue, s, trace⟩
      .finished ⟨[], r.after s queue, trace ++ queue.map .processed⟩ := by
  induction queue generalizing s trace with
  -- each turn of the loop takes one unit, so the induction is on the queue
  | nil =>
    have hask := ask_available r ⟨[], s, trace⟩
    refine .loopEnd hask ?_
    simp only [Runtime.after, List.foldl_nil, List.map_nil, List.append_nil]
    exact .nil
  | cons unit queue ih =>
    have hask := ask_available r ⟨unit :: queue, s, trace⟩
    have hbody : Runs r [.call protocol "processInput" []] ⟨unit :: queue, s, trace⟩ .finished
        ⟨queue, r.consume s unit, trace ++ [.processed unit]⟩ :=
      .call (perform_input r unit queue s trace) .nil
    have hrest := ih (r.consume s unit) (trace ++ [.processed unit])
    rw [List.append_assoc] at hrest
    exact .loopNext hask hbody hrest

theorem runs_drain_message (r : Runtime S U) (queue : List U) (s : S) (trace : List (Act U)) :
    Runs r
      [.loopWhile Plan.available
        [.call protocol "processInput" [], .when Plan.betweenMessages [.stop]]]
      ⟨queue, s, trace⟩ .finished
      ⟨queue.drop (r.message s queue).length, r.after s (r.message s queue),
        trace ++ (r.message s queue).map .processed⟩ := by
  induction queue generalizing s trace with
  | nil =>
    have hask := ask_available r ⟨[], s, trace⟩
    refine .loopEnd hask ?_
    simp only [Runtime.message, Runtime.after, List.foldl_nil, List.map_nil, List.append_nil,
      List.drop_nil]
    exact .nil
  | cons unit queue ih =>
    have hask := ask_available r ⟨unit :: queue, s, trace⟩
    have hinput := perform_input r unit queue s trace
    have hflag := ask_betweenMessages r ⟨queue, r.consume s unit, trace ++ [.processed unit]⟩
    rw [Runtime.message]
    -- within a message the loop goes on, at its end it is left by the break
    cases hmid : r.midMessage (r.consume s unit) with
    | true =>
      rw [hmid] at hflag
      have hrest := ih (r.consume s unit) (trace ++ [.processed unit])
      rw [List.append_assoc] at hrest
      exact .loopNext hask (.call hinput (.whenFalse hflag .nil)) hrest
    | false =>
      rw [hmid] at hflag
      exact .loopStopped hask (.call hinput (.whenStopped hflag .stop)) .nil

end FirmataSketch.Sketch

namespace FirmataSketch.Plan

open Sketch

universe u v
variable {S : Type u} {U : Type v} {p : Plan}

def reportingCode (p : Plan) : List Stmt :=
  if p.reportingEnabled then
    [.when ⟨Sketch.reporting, "elapsed", false⟩
      (p.reporting.map fun f => .call f.instanceText "report" [])]
  else []

/-- The statements of the loop without its blank lines. -/
def passCode (p : Plan) : List Stmt :=
  (p.provider? .digitalInput).toList.map (fun f => .call f.instanceText "report" []) ++
    p.drainCode ++ p.reportingCode ++ p.update.map fun f => .call f.instanceText "update" []

theorem reading_drainCode (hn : ∀ f ∈ p.features, IsName f.instanceText) :
    Reading p.drainCode p.drainCode := by
  have havailable : available.IsNamed := by decide
  have hbetween : betweenMessages.IsNamed := by decide
  have hinput : IsName protocol ∧ IsName "processInput" := by decide
  unfold drainCode
  cases hp : p.provider? .scheduler with
  | none => exact .loopWhile havailable (.call hinput.1 hinput.2 .nil) .nil
  | some f =>
    have hf := hn f (mem_of_provider? hp)
    exact .loopWhile havailable (.call hinput.1 hinput.2 (.when hbetween (.stop .nil) .nil))
      (.when hbetween (.call hf (by decide) .nil) .nil)

theorem reading_feature_calls (fs : List Feature) (action : String) (ha : IsName action)
    (hn : ∀ f ∈ fs, IsName f.instanceText) :
    Reading (fs.map fun f => .call f.instanceText action [])
      (fs.map fun f => .call f.instanceText action []) := by
  have hx : ∀ x ∈ fs.map Feature.instanceText, IsName x := by simpa using hn
  simpa [Function.comp_def] using reading_calls ha hx

theorem reading_digitalCode (hn : ∀ f ∈ p.features, IsName f.instanceText) :
    Reading
      (match p.provider? .digitalInput with
        | some f => [.call f.instanceText "report" [], .blank]
        | none => [])
      ((p.provider? .digitalInput).toList.map fun f => .call f.instanceText "report" []) := by
  cases hp : p.provider? .digitalInput with
  | none => exact .nil
  | some f => exact .call (hn f (mem_of_provider? hp)) (by decide) (.blank .nil)

theorem Consistent.readText_loop (h : p.Consistent)
    (hn : ∀ f ∈ p.features, IsName f.instanceText) :
    ∃ block, p.loop = .ok block ∧ readText block.text = some ("loop", p.passCode) := by
  have hreporting : ∀ f ∈ p.reporting, IsName f.instanceText := fun f hf =>
    hn f (h.reporting_subset hf)
  have hupdate : ∀ f ∈ p.update, IsName f.instanceText := fun f hf => hn f (h.update_subset hf)
  have htimer : Reading
      (if p.reportingEnabled then
        [.when ⟨Sketch.reporting, "elapsed", false⟩
          (p.reporting.map fun f => .call f.instanceText "report" []), .blank] else [])
      p.reportingCode := by
    unfold reportingCode
    split
    · have hreports := reading_feature_calls p.reporting "report" (by decide) hreporting
      exact .when (by decide) hreports (.blank .nil)
    · exact .nil
  have hcalls := reading_feature_calls p.update "update" (by decide) hupdate
  have hbody := ((((reading_digitalCode hn).append (reading_drainCode hn)).append (.blank .nil)).append
    htimer).append hcalls
  rw [List.append_nil] at hbody
  exact ⟨_, h.loop_eq, readText_define (by decide) hbody⟩

theorem any_capability_eq (p : Plan) (c : Capability) :
    p.features.any (·.capability == some c) = (p.provider? c).isSome := by
  rw [provider?, List.isSome_find?]

theorem runs_drainCode (r : Runtime S U) (s : S) (queue : List U) (trace : List (Act U)) :
    Runs r p.drainCode ⟨queue, s, trace⟩ .finished
      ⟨queue.drop (r.taken p.features s queue).length, r.after s (r.taken p.features s queue),
        trace ++ (r.taken p.features s queue).map .processed ++
          if r.midMessage (r.after s (r.taken p.features s queue)) then []
          else Runtime.calls (p.provider? .scheduler).toList "runTasks"⟩ := by
  unfold drainCode Runtime.taken
  rw [any_capability_eq]
  cases hp : p.provider? .scheduler with
  | none =>
    have h := runs_drain_all r queue s trace
    simpa [Runtime.calls] using h
  | some f =>
    have hloop := runs_drain_message r queue s trace
    -- the test after the loop is asked of the parser that the loop leaves
    refine hloop.append rfl ?_
    simp only [Option.isSome_some, if_true]
    cases hmid : r.midMessage (r.after s (r.message s queue)) with
    | true =>
      refine .whenFalse ((ask_betweenMessages r _).trans (by simp [hmid])) ?_
      simp only [if_true, List.append_nil]
      exact .nil
    | false =>
      have htasks := runs_calls r "runTasks" (by decide) [f]
        ⟨queue.drop (r.message s queue).length, r.after s (r.message s queue),
          trace ++ (r.message s queue).map .processed⟩
      exact .whenTrue ((ask_betweenMessages r _).trans (by simp [hmid])) htasks .nil

theorem Consistent.runs_reportingCode (h : p.Consistent) (r : Runtime S U) (m : Machine S U) :
    Runs r p.reportingCode m .finished
      { m with trace := m.trace ++
          if r.elapsed then Runtime.calls (p.features.filter (·.reporting)) "report" else [] } := by
  have hcalls := runs_calls r "report" (by decide) p.reporting m
  have hask := ask_elapsed r m
  rw [← h.reporting_eq]
  unfold reportingCode reportingEnabled
  -- no feature that reports, no test: then there are no calls to wait for either
  cases hempty : p.reporting with
  | nil =>
    simp only [List.isEmpty_nil, Bool.not_true, Bool.false_eq_true, if_false, Runtime.calls,
      List.map_nil, ite_self, List.append_nil]
    exact .nil
  | cons f fs =>
    rw [hempty] at hcalls
    cases helapsed : r.elapsed with
    | true =>
      rw [helapsed] at hask
      exact .whenTrue hask hcalls .nil
    | false =>
      rw [helapsed] at hask
      simp only [Bool.false_eq_true, if_false, List.append_nil]
      exact .whenFalse hask .nil

theorem Consistent.runs_passCode (h : p.Consistent) (r : Runtime S U) (s : S) (queue : List U) :
    Runs r p.passCode ⟨queue, s, []⟩ .finished (r.passEnd p.features s queue) := by
  have hdigital := runs_calls r "report" (by decide)
    (p.provider? .digitalInput).toList ⟨queue, s, []⟩
  have hdrain := runs_drainCode (p := p) r s queue
    (Runtime.calls (p.provider? .digitalInput).toList "report")
  have hreports := h.runs_reportingCode r
  have hupdates := runs_calls r "update" (by decide) p.update
  -- the parts in the order of the code, each from where the one before it ended
  have hpass := ((hdigital.append rfl hdrain).append rfl (hreports _)).append rfl (hupdates _)
  have hmarks : Runtime.calls (U := U) p.update "update" =
      Runtime.calls (p.features.filter (·.update)) "update" := by rw [h.update_eq]
  rw [hmarks] at hpass
  exact hpass

/-- A pass of the loop that is read from its text ends, and what it does is settled: the digital
input reports, input is processed, the tasks of the scheduler run between messages, and then the
features report when the timer has elapsed and are updated. -/
theorem loop_pass {index : Index} {names : List Value} (hp : resolve index names = .ok p)
    (hn : ∀ f ∈ p.features, IsName f.instanceText) (r : Runtime S U) (s : S) (queue : List U) :
    ∃ block body, p.loop = .ok block ∧ readText block.text = some ("loop", body) ∧
      ∀ e m, Runs r body ⟨queue, s, []⟩ e m ↔
        e = .finished ∧ m = r.passEnd p.features s queue := by
  have hc := resolve_consistent hp
  obtain ⟨block, hblock, hread⟩ := hc.readText_loop hn
  -- one run is enough, since there is no other
  exact ⟨block, p.passCode, hblock, hread, (hc.runs_passCode r s queue).iff_eq⟩

/-- Of the units 1, 0 and 2 the first two are a message, after which the tasks run. -/
theorem loop_pass_shipped :
    ∃ p, resolve (Catalog.shippedIndex ⟨.root, []⟩)
        [.text "AnalogInputFirmata", .text "FirmataScheduler", .text "DigitalInputFirmata",
          .text "StepperFirmata"] = .ok p ∧
      (∀ f ∈ p.features, IsName f.instanceText) ∧
      ∃ block body, p.loop = .ok block ∧ readText block.text = some ("loop", body) ∧
        ∀ e m, Runs ⟨fun _ unit => unit, (· != 0), true⟩ body ⟨[1, 0, 2], 0, []⟩ e m ↔
          e = .finished ∧ m = ⟨[2], 0,
            [.called "digitalInput" "report", .processed 1, .processed 0,
              .called "scheduler" "runTasks", .called "analogInput" "report",
              .called "stepper" "update"]⟩ := by
  have hp : resolve (Catalog.shippedIndex ⟨.root, []⟩)
      [.text "AnalogInputFirmata", .text "FirmataScheduler", .text "DigitalInputFirmata",
        .text "StepperFirmata"] = .ok _ := rfl
  exact ⟨_, hp, by decide, loop_pass hp (by decide) _ _ _⟩

end FirmataSketch.Plan
