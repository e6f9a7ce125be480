import FirmataSketch.Proofs.Sketch.Banner
import FirmataSketch.Proofs.Text.Encoding

/-! The characters of a sketch. What is not a common character comes from the texts that are put in: the
file name, the stamp, the baud and the texts of the features. -/

namespace FirmataSketch

open Text (CommonBut commonBut_append)

namespace Text.CommonBut

theorem forall_of_all {parts ts : List String}
    (h : (ts.all fun s => s.toList.all fun c => decide (IsCommon c)) = true) :
    ∀ t ∈ ts, CommonBut parts t := fun t ht => .of_all (List.all_eq_true.1 h t ht)

theorem intercalate {parts : List String} {sep : String} {ts : List String}
    (hsep : CommonBut parts sep) (h : ∀ t ∈ ts, CommonBut parts t) :
    CommonBut parts (String.intercalate sep ts) := by
  induction ts with
  | nil => exact .of_all rfl
  | cons t ts ih =>
    rw [List.forall_mem_cons] at h
    cases ts with
    | nil => exact String.intercalate_singleton ▸ h.1
    | cons t' ts =>
      rw [String.intercalate_cons_cons, commonBut_append, commonBut_append]
      exact ⟨⟨h.1, hsep⟩, ih h.2⟩

end Text.CommonBut

namespace Sketch

variable {parts : List String}

namespace Stmt

mutual

/-- The texts that stand in a statement. -/
def texts : Stmt → List String
  | .blank | .stop => []
  | .call target action args => target :: action :: args
  | .invoke function => [function]
  | .loopWhile test body | .when test body => test.target :: test.query :: textsAll body
  | .eachPin body => textsAll body
  | .pinKinds analog digital => textsAll analog ++ textsAll digital

def textsAll : List Stmt → List String
  | [] => []
  | s :: ss => texts s ++ textsAll ss

end

theorem textsAll_eq_flatMap (ss : List Stmt) : textsAll ss = ss.flatMap texts := by
  induction ss with
  | nil => rfl
  | cons s ss ih => rw [textsAll, ih, List.flatMap_cons]

theorem commonBut_indented {depth : Nat} {s : String} (h : CommonBut parts s) :
    CommonBut parts (indented depth s) := by
  refine commonBut_append.2 ⟨.of_common fun c hc => ?_, h⟩
  rw [String.toList_ofList] at hc
  rw [(List.mem_replicate.1 hc).2]
  decide

theorem commonBut_test {t : Test} (h : CommonBut parts t.target ∧ CommonBut parts t.query) :
    CommonBut parts t.text := by
  have hnot : CommonBut parts (if t.negated then "!" else "") := by
    split <;> exact .of_all (by decide)
  simp only [Test.text, commonBut_append]
  exact ⟨⟨⟨⟨hnot, h.1⟩, .of_all (by decide)⟩, h.2⟩, .of_all (by decide)⟩

mutual

theorem commonBut_lines : ∀ (s : Stmt) (depth : Nat), (∀ t ∈ s.texts, CommonBut parts t) →
    ∀ l ∈ s.lines depth, CommonBut parts l
  | .blank, depth, _ => by
    rw [lines, List.forall_mem_singleton]
    exact .of_all rfl
  | .call target action args, depth, h => by
    rw [texts, List.forall_mem_cons, List.forall_mem_cons] at h
    obtain ⟨htarget, haction, hargs⟩ := h
    have hinside := Text.CommonBut.intercalate (.of_all (by decide) : CommonBut parts ", ") hargs
    rw [lines, List.forall_mem_singleton]
    refine commonBut_indented ?_
    simp only [commonBut_append]
    exact ⟨⟨⟨⟨⟨htarget, .of_all (by decide)⟩, haction⟩, .of_all (by decide)⟩, hinside⟩,
      .of_all (by decide)⟩
  | .invoke function, depth, h => by
    rw [texts, List.forall_mem_singleton] at h
    rw [lines, List.forall_mem_singleton]
    exact commonBut_indented (commonBut_append.2 ⟨h, .of_all (by decide)⟩)
  | .stop, depth, _ => by
    rw [lines, List.forall_mem_singleton]
    exact commonBut_indented (.of_all (by decide))
  | .loopWhile test body, depth, h => by
    rw [texts, List.forall_mem_cons, List.forall_mem_cons] at h
    obtain ⟨htarget, hquery, hbody⟩ := h
    rw [lines, List.forall_mem_cons, List.forall_mem_append, List.forall_mem_singleton]
    refine ⟨commonBut_indented ?_, commonBut_linesAll body (depth + 1) hbody,
      commonBut_indented (.of_all (by decide))⟩
    rw [commonBut_append, commonBut_append]
    exact ⟨⟨.of_all (by decide), commonBut_test ⟨htarget, hquery⟩⟩, .of_all (by decide)⟩
  | .when test body, depth, h => by
    rw [texts, List.forall_mem_cons, List.forall_mem_cons] at h
    obtain ⟨htarget, hquery, hbody⟩ := h
    rw [lines, List.forall_mem_cons, List.forall_mem_append, List.forall_mem_singleton]
    refine ⟨commonBut_indented ?_, commonBut_linesAll body (depth + 1) hbody,
      commonBut_indented (.of_all (by decide))⟩
    rw [commonBut_append, commonBut_append]
    exact ⟨⟨.of_all (by decide), commonBut_test ⟨htarget, hquery⟩⟩, .of_all (by decide)⟩
  | .eachPin body, depth, h => by
    rw [lines, List.forall_mem_cons, List.forall_mem_append, List.forall_mem_singleton]
    exact ⟨commonBut_indented (.of_all (by decide)),
      commonBut_linesAll body (depth + 1) (by rwa [texts] at h),
      commonBut_indented (.of_all (by decide))⟩
  | .pinKinds analog digital, depth, h => by
    rw [texts, List.forall_mem_append] at h
    rw [lines, List.forall_mem_cons, List.forall_mem_append, List.forall_mem_cons,
      List.forall_mem_append, List.forall_mem_singleton]
    exact ⟨commonBut_indented (.of_all (by decide)), commonBut_linesAll analog (depth + 1) h.1,
      commonBut_indented (.of_all (by decide)), commonBut_linesAll digital (depth + 1) h.2,
      commonBut_indented (.of_all (by decide))⟩

theorem commonBut_linesAll : ∀ (ss : List Stmt) (depth : Nat),
    (∀ t ∈ textsAll ss, CommonBut parts t) → ∀ l ∈ linesAll depth ss, CommonBut parts l
  | [], _, _ => fun _ hl => nomatch hl
  | s :: ss, depth, h => by
    rw [textsAll, List.forall_mem_append] at h
    rw [linesAll, List.forall_mem_append]
    exact ⟨commonBut_lines s depth h.1, commonBut_linesAll ss depth h.2⟩

end

/-- The texts in some statements are common but for the parts. -/
def AllBut (parts : List String) (ss : List Stmt) : Prop := ∀ t ∈ textsAll ss, CommonBut parts t

theorem allBut_append {ss ss' : List Stmt} :
    AllBut parts (ss ++ ss') ↔ AllBut parts ss ∧ AllBut parts ss' := by
  simp only [AllBut, textsAll_eq_flatMap, List.flatMap_append, List.forall_mem_append]

theorem allBut_cons {s : Stmt} {ss : List Stmt} :
    AllBut parts (s :: ss) ↔ (∀ t ∈ s.texts, CommonBut parts t) ∧ AllBut parts ss := by
  rw [AllBut, textsAll, List.forall_mem_append]
  rfl

end Stmt

namespace Item

def texts : Item → List String
  | .blank => []
  | .comment ls => ls
  | .include header => [header]
  | .declare className instanceName => [className, instanceName]
  | .define function body => function :: Stmt.textsAll body

theorem commonBut_lines {i : Item} (h : ∀ t ∈ i.texts, CommonBut parts t) :
    ∀ l ∈ i.lines, CommonBut parts l := by
  cases i with
  | blank =>
    rw [lines, List.forall_mem_singleton]
    exact .of_all rfl
  | comment ls =>
    rw [lines, List.forall_mem_cons, List.forall_mem_append, List.forall_mem_map,
      List.forall_mem_singleton]
    exact ⟨.of_all (by decide), fun l hl => commonBut_append.2 ⟨.of_all (by decide), h l hl⟩,
      .of_all (by decide)⟩
  | «include» header =>
    rw [texts, List.forall_mem_singleton] at h
    rw [lines, List.forall_mem_singleton, commonBut_append, commonBut_append]
    exact ⟨⟨.of_all (by decide), h⟩, .of_all (by decide)⟩
  | declare className instanceName =>
    rw [texts, List.forall_mem_cons, List.forall_mem_singleton] at h
    rw [lines, List.forall_mem_singleton]
    simp only [commonBut_append]
    exact ⟨⟨⟨h.1, .of_all (by decide)⟩, h.2⟩, .of_all (by decide)⟩
  | define function body =>
    rw [texts, List.forall_mem_cons] at h
    rw [lines, List.forall_mem_cons, List.forall_mem_cons, List.forall_mem_append,
      List.forall_mem_singleton, commonBut_append, commonBut_append]
    exact ⟨⟨⟨.of_all (by decide), h.1⟩, .of_all (by decide)⟩, .of_all (by decide),
      Stmt.commonBut_linesAll body 1 h.2, .of_all (by decide)⟩

end Item

namespace Block

def texts (b : Block) : List String := b.flatMap Item.texts

theorem commonBut_lines {b : Block} (h : ∀ t ∈ b.texts, CommonBut parts t) :
    ∀ l ∈ b.lines, CommonBut parts l := by
  intro l hl
  obtain ⟨i, hi, hl⟩ := List.mem_flatMap.1 hl
  exact Item.commonBut_lines (fun t ht => h t (List.mem_flatMap.2 ⟨i, hi, ht⟩)) l hl

theorem commonBut_define {function : String} {body : List Stmt} {b : Block}
    (hname : CommonBut parts function) (hbody : Stmt.AllBut parts body)
    (hb : ∀ t ∈ b.texts, CommonBut parts t) :
    ∀ t ∈ Block.texts (.define function body :: b), CommonBut parts t := by
  rw [texts, List.flatMap_cons, List.forall_mem_append, Item.texts, List.forall_mem_cons]
  exact ⟨⟨hname, hbody⟩, hb⟩

end Block

end Sketch

namespace Plan

open Sketch

variable {p : Plan} {parts : List String}

theorem commonBut_act {target action : String} (ht : CommonBut parts target)
    (ha : CommonBut parts action) : ∀ t ∈ (Stmt.call target action []).texts, CommonBut parts t := by
  rw [Stmt.texts, List.forall_mem_cons, List.forall_mem_singleton]
  exact ⟨ht, ha⟩

theorem commonBut_acts {fs : List Feature} {action : String}
    (h : ∀ f ∈ fs, CommonBut parts f.instanceText) (ha : CommonBut parts action) :
    Stmt.AllBut parts (fs.map fun f => .call f.instanceText action []) := by
  rw [Stmt.AllBut, Stmt.textsAll_eq_flatMap, List.forall_mem_flatMap, List.forall_mem_map]
  exact fun f hf => commonBut_act (h f hf) ha

theorem commonBut_shared (p : Plan) : ∀ t ∈ p.shared.texts, CommonBut parts t := by
  unfold shared
  cases p.analogWrite <;> cases p.reportingEnabled <;>
    exact Text.CommonBut.forall_of_all (by decide)

theorem commonBut_resetBlock (p : Plan) : ∀ t ∈ p.resetBlock.texts, CommonBut parts t := by
  unfold resetBlock
  cases p.has .analogInput <;> cases p.has .digitalOutput <;>
    exact Text.CommonBut.forall_of_all (by decide)

theorem commonBut_begin {baud : Option Value} : (∀ b ∈ baud, CommonBut parts b.display) →
    Stmt.AllBut parts (match baud with
      | some b => [.call protocol "begin" [b.display], .blank]
      | none => []) := by
  intro hb
  cases baud with
  | none => exact Text.CommonBut.forall_of_all rfl
  | some b =>
    rw [Stmt.allBut_cons, Stmt.texts, List.forall_mem_cons, List.forall_mem_cons,
      List.forall_mem_singleton]
    exact ⟨⟨.of_all (by decide), .of_all (by decide), hb b rfl⟩, Text.CommonBut.forall_of_all rfl⟩

theorem commonBut_setup (hf : ∀ f ∈ p.features, CommonBut parts f.instanceText) {baud : Option Value}
    (hb : ∀ b ∈ baud, CommonBut parts b.display) :
    ∀ t ∈ (p.setup baud).texts, CommonBut parts t := by
  have hregister : Stmt.AllBut parts (p.features.map fun f => register f.instanceText) := by
    rw [Stmt.AllBut, Stmt.textsAll_eq_flatMap, List.forall_mem_flatMap, List.forall_mem_map]
    intro f hf'
    rw [register, Stmt.texts, List.forall_mem_cons, List.forall_mem_cons, List.forall_mem_singleton]
    exact ⟨.of_all (by decide), .of_all (by decide), hf f hf'⟩
  have hwrite : Stmt.AllBut parts (if p.analogWrite then
      [.call protocol "attach" ["ANALOG_MESSAGE", "analogWriteCallback"], .blank] else []) := by
    split <;> exact Text.CommonBut.forall_of_all (by decide)
  have hreporting : Stmt.AllBut parts
      (if p.reportingEnabled then [register Sketch.reporting, .blank] else []) := by
    split <;> exact Text.CommonBut.forall_of_all (by decide)
  refine Block.commonBut_define (.of_all (by decide)) ?_ (Text.CommonBut.forall_of_all rfl)
  simp only [Stmt.allBut_append]
  exact ⟨⟨⟨⟨⟨⟨Text.CommonBut.forall_of_all (by decide), hwrite⟩, hregister⟩, hreporting⟩,
    Text.CommonBut.forall_of_all (by decide)⟩, commonBut_begin hb⟩,
    Text.CommonBut.forall_of_all (by decide)⟩

theorem commonBut_drainCode (hf : ∀ f ∈ p.features, CommonBut parts f.instanceText) :
    Stmt.AllBut parts p.drainCode := by
  unfold drainCode
  cases hprovider : p.provider? .scheduler with
  | none => exact Text.CommonBut.forall_of_all (by decide)
  | some f =>
    have hrun := commonBut_act (hf f (mem_of_provider? hprovider))
      (.of_all (by decide) : CommonBut parts "runTasks")
    rw [Stmt.allBut_cons, Stmt.allBut_cons, Stmt.texts.eq_6, List.forall_mem_cons,
      List.forall_mem_cons]
    refine ⟨Text.CommonBut.forall_of_all (by decide), ?_, Text.CommonBut.forall_of_all rfl⟩
    exact ⟨.of_all (by decide), .of_all (by decide),
      Stmt.allBut_cons.2 ⟨hrun, Text.CommonBut.forall_of_all rfl⟩⟩

theorem Consistent.commonBut_loop (hp : p.Consistent)
    (hf : ∀ f ∈ p.features, CommonBut parts f.instanceText) :
    ∀ t ∈ Block.texts [.define "loop" p.loopCode], CommonBut parts t := by
  have hreports := commonBut_acts (fun f hf' => hf f (hp.reporting_subset hf'))
    (.of_all (by decide) : CommonBut parts "report")
  have hupdates := commonBut_acts (fun f hf' => hf f (hp.update_subset hf'))
    (.of_all (by decide) : CommonBut parts "update")
  have hreporting : Stmt.AllBut parts (if p.reportingEnabled then
      [.when ⟨Sketch.reporting, "elapsed", false⟩
        (p.reporting.map fun f => .call f.instanceText "report" []), .blank] else []) := by
    split
    · rw [Stmt.allBut_cons, Stmt.texts, List.forall_mem_cons, List.forall_mem_cons]
      exact ⟨⟨.of_all (by decide), .of_all (by decide), hreports⟩, Text.CommonBut.forall_of_all rfl⟩
    · exact Text.CommonBut.forall_of_all rfl
  have hblank : Stmt.AllBut parts [.blank] := Text.CommonBut.forall_of_all rfl
  refine Block.commonBut_define (.of_all (by decide)) ?_ (Text.CommonBut.forall_of_all rfl)
  simp only [loopCode, Stmt.allBut_append]
  refine ⟨⟨⟨⟨?_, commonBut_drainCode hf⟩, hblank⟩, hreporting⟩, hupdates⟩
  cases hprovider : p.provider? .digitalInput with
  | none => exact Text.CommonBut.forall_of_all rfl
  | some f =>
    have hact := commonBut_act (hf f (mem_of_provider? hprovider))
      (.of_all (by decide) : CommonBut parts "report")
    exact Stmt.allBut_cons.2 ⟨hact, Text.CommonBut.forall_of_all rfl⟩

theorem commonBut_featureBlocks {included included' : List Value} {b : Block}
    (h : featureBlocks included p.features = (.ok b, included'))
    (hf : ∀ f ∈ p.features, ∀ t ∈ f.texts, CommonBut parts t) :
    ∀ t ∈ b.texts, CommonBut parts t := by
  intro t ht
  obtain ⟨i, hi, ht⟩ := List.mem_flatMap.1 ht
  obtain ⟨f, hmem, hi⟩ := mem_featureBlocks h hi
  rw [featureBlock, List.mem_append, List.mem_map] at hi
  simp only [List.mem_cons, List.not_mem_nil, or_false] at hi
  rcases hi with ⟨d, hd, rfl⟩ | rfl | rfl | rfl
  · obtain rfl := List.mem_singleton.1 ht
    exact hf f hmem _ (by simp [Feature.texts, List.mem_map_of_mem hd])
  · obtain rfl := List.mem_singleton.1 ht
    exact hf f hmem _ (by simp [Feature.texts])
  · rw [Item.texts, List.mem_cons, List.mem_singleton] at ht
    rcases ht with rfl | rfl
    · exact hf f hmem _ (by simp [Feature.texts])
    · exact hf f hmem _ (by simp [Feature.texts])
  · cases ht

end Plan

namespace Sketch

variable {s : Sketch} {p : Plan} {d : Draft} {m : Clock.Moment}

/-- The texts that are put into the sketch of a plan. -/
def texts (p : Plan) (d : Draft) (m : Clock.Moment) : List String :=
  d.filename.display :: m.zone.name :: d.baud.toList.map Value.display ++
    p.features.flatMap Feature.texts

theorem IsOf.commonBut_lines (h : s.IsOf p d m) (hp : p.Consistent) :
    ∀ l ∈ s.lines, CommonBut (texts p d m) l := by
  have hf : ∀ f ∈ p.features, ∀ t ∈ f.texts, CommonBut (texts p d m) t := fun f hf t ht =>
    .of_mem (List.mem_append_right _ (List.mem_flatMap.2 ⟨f, hf, ht⟩))
  have hinstances : ∀ f ∈ p.features, CommonBut (texts p d m) f.instanceText := fun f hf' =>
    hf f hf' _ (by simp [Feature.texts])
  have hbaud : ∀ b ∈ d.baud, CommonBut (texts p d m) b.display := by
    intro b hb
    refine .of_mem (List.mem_append_left _ ?_)
    rw [Option.mem_def.1 hb]
    simp
  have hfilename : CommonBut (texts p d m) d.filename.display := .of_mem List.mem_cons_self
  have hstamp : CommonBut (texts p d m) m.stamp :=
    m.commonBut_stamp.mono (by simp [texts])
  have hbanner : ∀ t ∈ Block.texts (bannerBlock d.filename m), CommonBut (texts p d m) t := by
    have htexts : Block.texts (bannerBlock d.filename m) =
        [d.filename.display ++ Settings.extension ++ " generated by FirmataBuilder", m.stamp,
          protocolHeader] := rfl
    rw [htexts, List.forall_mem_cons, List.forall_mem_cons, List.forall_mem_singleton,
      Text.commonBut_append, Text.commonBut_append]
    exact ⟨⟨⟨hfilename, .of_all (by decide)⟩, .of_all (by decide)⟩, hstamp,
      .of_all (by decide)⟩
  obtain ⟨blocks, included, hblocks, hincludes⟩ := h.includes
  have hfeatures : ∀ t ∈ Block.texts s.includes, CommonBut (texts p d m) t := by
    rw [hincludes, Block.texts, List.flatMap_append, List.forall_mem_append]
    exact ⟨Plan.commonBut_featureBlocks hblocks hf, Text.CommonBut.forall_of_all (by decide)⟩
  have hloop : s.loop = [.define "loop" p.loopCode] :=
    Except.ok.inj (h.loop.symm.trans hp.loop_eq)
  rw [lines, h.banner, h.shared, h.reset, h.setup, hloop]
  simp only [List.forall_mem_append]
  exact ⟨⟨⟨⟨⟨Block.commonBut_lines hbanner, Block.commonBut_lines hfeatures⟩,
    Block.commonBut_lines p.commonBut_shared⟩, Block.commonBut_lines p.commonBut_resetBlock⟩,
    Block.commonBut_lines (Plan.commonBut_setup hinstances hbaud)⟩,
    Block.commonBut_lines (hp.commonBut_loop hinstances)⟩

theorem IsOf.isEncodable (h : s.IsOf p d m) (hp : p.Consistent)
    (htexts : ∀ t ∈ texts p d m, Text.IsEncodable t) : Text.IsEncodable s.text := by
  rw [text, Text.isEncodable_unlines_iff]
  intro l hl c hc
  rcases h.commonBut_lines hp l hl c hc with hcommon | ⟨t, ht, hmem⟩
  · exact hcommon.isSurrogate_eq_false
  · exact htexts t ht c hmem

end Sketch

/-- The texts of the shipped features can be encoded. -/
theorem Catalog.isEncodable_shipped {home : Disk.PathName} {k : Key} {f : Feature}
    (h : (shippedIndex home).get? k = some f) : ∀ t ∈ f.texts, Text.IsEncodable t := by
  obtain ⟨entry, hentry, rfl⟩ := Option.map_eq_some_iff.1 h
  obtain ⟨before, after, hsplit, -⟩ := List.lookup_eq_some_iff.1 hentry
  have hmem : (k, entry) ∈ (shippedIndex home).entries := by simp [hsplit]
  obtain ⟨supply, hsupply, hentry⟩ := List.mem_map.1 hmem
  cases hentry
  -- the texts of a feature do not depend on the folder that it comes from
  have hall : ∀ supply ∈ supplied, ∀ t ∈ (supply.feature ⟨.root, []⟩).texts, Text.IsEncodable t := by
    decide
  exact hall supply hsupply

/-- Sketches from the shipped catalog can be encoded, but for the name of the zone. -/
theorem Selection.isEncodable_sketch {s : Selection} {home : Disk.PathName} {clock : Clock}
    {m : Clock.Moment} {sketch : Sketch} (hname : Text.acceptsWord s.filename = true)
    (hm : clock.momentOf none = .ok m) (hzone : Text.IsEncodable m.zone.name)
    (h : (s.draft.sketch (Catalog.shippedIndex home) clock none).result = .ok sketch) :
    Text.IsEncodable sketch.text := by
  obtain ⟨p, m', hp, hm', hof⟩ := Draft.sketch_ok h
  obtain rfl := Except.ok.inj (hm.symm.trans hm')
  have hbaud : Text.IsEncodable (Text.decimal s.baud) :=
    Text.isEncodable_of_commonBut (Text.commonBut_decimal [] s.baud)
  have hfeatures : ∀ t ∈ p.features.flatMap Feature.texts, Text.IsEncodable t := by
    rw [List.forall_mem_flatMap]
    intro f hf
    obtain ⟨-, -, k, -, hget⟩ := (Plan.mem_features_of_resolve hp f).1 hf
    exact Catalog.isEncodable_shipped hget
  refine hof.isEncodable (Plan.resolve_consistent hp) ?_
  have htexts : Sketch.texts p s.draft m = s.filename :: m.zone.name :: Text.decimal s.baud ::
      p.features.flatMap Feature.texts := rfl
  rw [htexts, List.forall_mem_cons, List.forall_mem_cons, List.forall_mem_cons]
  exact ⟨Text.isEncodable_of_acceptsWord hname, hzone, hbaud, hfeatures⟩

end FirmataSketch
