import FirmataSketch.Proofs.Web.Answer
import FirmataSketch.Web.Server

/-! Requests to the web server, one by one and in a row. A kept catalog is the shipped one, so no reply
depends on earlier requests. What the two routes for sketches answer is settled by the body first, then by
the selection and the catalog, and at last by the clock. -/

namespace FirmataSketch

open Disk (PathName)
open Outcome (bind_ok bind_error mapError_ok mapError_error)

theorem Selection.draft_of_ofParts {features : List String} {filename : String} {baud : Int}
    {s : Selection} (h : ofParts features filename baud = .ok s) :
    s.draft = ⟨.text filename, some (.int baud), features.map .text⟩ := by
  obtain ⟨name, hname, h⟩ := bind_ok h
  obtain ⟨rate, hrate, h⟩ := bind_ok h
  cases h
  have hfilename : Value.text filename = .text name := (validateFilename_ok hname).1
  have hbaud : Value.int baud = .int rate := validateBaud_ok hrate
  rw [hfilename, hbaud, draft]

namespace Web

namespace Server

variable {s : Server} {home : PathName}

/-- What is kept is the shipped catalog. -/
def Faithful (s : Server) : Prop := ∀ c ∈ s.kept, c = Catalog.shipped s.home

theorem faithful_start (home : PathName) (framework : Framework) : Faithful { home, framework } := by
  intro c hc
  cases hc

theorem Faithful.catalog (h : s.Faithful) : s.catalog = Catalog.shipped s.home := by
  rw [Server.catalog]
  cases hkept : s.kept with
  | none => rfl
  | some c => exact h c hkept

theorem Faithful.answer (h : s.Faithful) (clock : Clock) (q : Inquiry) :
    (s.answer clock q).2.Faithful ∧ (s.answer clock q).2.home = s.home ∧
      (s.answer clock q).2.framework = s.framework := by
  rw [Server.answer]
  split
  · refine ⟨fun c hc => ?_, rfl, rfl⟩
    rw [← h.catalog]
    exact (Option.some.inj hc).symm
  · exact ⟨h, rfl, rfl⟩

theorem Faithful.reply (h : s.Faithful) (clock : Clock) (q : Inquiry) :
    (s.reply clock q).2.Faithful ∧ (s.reply clock q).2.home = s.home ∧
      (s.reply clock q).2.framework = s.framework := by
  rw [Server.reply]
  split
  · exact h.answer clock q
  · exact ⟨h, rfl, rfl⟩

/-- What is kept does not show in a reply. -/
theorem Faithful.reply_congr {s' : Server} (h : s.Faithful) (h' : s'.Faithful) (hhome : s'.home = s.home)
    (hframework : s'.framework = s.framework) (clock : Clock) (q : Inquiry) :
    (s'.reply clock q).1 = (s.reply clock q).1 := by
  have hanswer : (s'.answer clock q).1 = (s.answer clock q).1 := by
    rw [Server.answer, Server.answer, h.catalog, h'.catalog, hhome, hframework]
  rw [Server.reply, Server.reply, hframework]
  split
  · dsimp only
    rw [hanswer]
  · rfl

theorem Faithful.replies (h : s.Faithful) (clock : Clock) (qs : List Inquiry) :
    s.replies clock qs = qs.map fun q => (s.reply clock q).1 := by
  -- the server at hand, after some requests
  suffices hrun : ∀ s' : Server, s'.Faithful → s'.home = s.home → s'.framework = s.framework →
      s'.replies clock qs = qs.map fun q => (s.reply clock q).1 from hrun s h rfl rfl
  induction qs with
  | nil => exact fun _ _ _ _ => rfl
  | cons q qs ih =>
    intro s' h' hhome hframework
    obtain ⟨hnext, hhome', hframework'⟩ := h'.reply clock q
    rw [Server.replies, List.map_cons, h.reply_congr h' hhome hframework,
      ih _ hnext (hhome'.trans hhome) (hframework'.trans hframework)]

end Server

section

variable {rules : Rules} {home : PathName} {clock : Clock} {fields : List (String × Value)}
  {r : Request} {p : Plan} {m : Clock.Moment} {e : Failure}

/-- The selection that the request asks for is made and its features are found. -/
def Request.plan (r : Request) (home : PathName) : Except Failure Plan := do
  let s ← Selection.make (.list (r.features.map .text)) (.text r.filename) (.int r.baud)
  Plan.resolve (Catalog.shippedIndex home) (s.features.map .text)

theorem isOwn_of_plan_error (h : r.plan home = .error e) : e.isOwn = true := by
  rcases bind_error h with hs | ⟨s, -, hp⟩
  · rw [Selection.make_texts] at hs
    obtain ⟨f, -, rfl⟩ := mapError_error hs
    rfl
  · exact Plan.isOwn_of_resolve_texts_error hp

theorem drawn_of_plan_error (h : r.plan home = .error e) :
    Selection.drawn home clock r.selection = .error e := by
  rw [Request.selection]
  rcases bind_error h with hs | ⟨s, hs, hp⟩
  · rw [hs]
    rfl
  · have hsketch : s.draft.sketch (Catalog.shippedIndex home) clock none = ⟨[], .error e⟩ :=
      Draft.sketch_of_unresolved hp
    rw [hs, Selection.drawn]
    simp only [bind, Except.bind, hsketch]

/-- A selection that is made has the parts that the request gives. -/
theorem selection_of_plan (h : r.plan home = .ok p) :
    ∃ s, r.selection = .ok s ∧ s.sketchFilename = r.filename ++ Settings.extension ∧
      s.draft = ⟨.text r.filename, some (.int r.baud), r.features.map .text⟩ ∧
      Plan.resolve (Catalog.shippedIndex home) s.draft.features = .ok p := by
  obtain ⟨s, hs, hp⟩ := bind_ok h
  have hparts := mapError_ok ((Selection.make_texts ..).symm.trans hs)
  obtain ⟨-, hname, -⟩ := Selection.ofParts_ok hparts
  exact ⟨s, hs, by rw [Selection.sketchFilename, hname], Selection.draft_of_ofParts hparts, hp⟩

variable (answer : Selection → Sketch → Answer)

theorem answerSketch_of_plan_error (hr : r.Fits rules fields) (hp : r.plan home = .error e) :
    (answerSketch (Catalog.shipped home) clock fields answer rules).result =
      .ok (.refused e.message) := by
  rw [answerSketch_of_fits hr, drawn_of_plan_error hp]
  exact if_pos (isOwn_of_plan_error hp)

theorem answerSketch_of_time_error {f : Clock.Fault} (hr : r.Fits rules fields) (hp : r.plan home = .ok p)
    (hf : clock.momentOf none = .error f) :
    (answerSketch (Catalog.shipped home) clock fields answer rules).result = .error (.time f) := by
  obtain ⟨s, hs, -, -, hp⟩ := selection_of_plan hp
  have hsketch : (s.draft.sketch (Catalog.shippedIndex home) clock none).result =
      .error (.time f) := by
    rw [Draft.sketch_of_resolved hp, hf]
    rfl
  rw [answerSketch_of_fits hr, hs, Selection.drawn]
  simp only [bind, Except.bind, hsketch]
  rfl

theorem answerSketch_of_moment (hr : r.Fits rules fields) (hp : r.plan home = .ok p)
    (hm : clock.momentOf none = .ok m) :
    ∃ s sketch, s.sketchFilename = r.filename ++ Settings.extension ∧
      Sketch.ofPlan p (.text r.filename) (some (.int r.baud)) m = .ok sketch ∧
      ∀ answer, (answerSketch (Catalog.shipped home) clock fields answer rules).result =
        .ok (answer s sketch) := by
  obtain ⟨s, hs, hname, hdraft, hp⟩ := selection_of_plan hp
  have hfeatures := Plan.includable_of_resolve (Catalog.shippedIndex_includable home) hp
  obtain ⟨sketch, hsketch⟩ := Sketch.ofPlan_total (Plan.resolve_consistent hp) hfeatures
    s.draft.filename s.draft.baud m
  refine ⟨s, sketch, hname, by rwa [hdraft] at hsketch, fun answer => ?_⟩
  rw [answerSketch_of_fits hr, hs, Selection.drawn]
  simp only [bind, Except.bind, Draft.sketch_of_ofPlan hp hm hsketch]
  rfl

end

/-- The request is answered with the given status. -/
def Gives (a : Except Failure Answer) (status : Nat) : Prop := ∃ b, a = .ok b ∧ b.status = status

theorem gives_ok_iff {b : Answer} {status : Nat} : Gives (.ok b) status ↔ b.status = status := by
  simp [Gives]

theorem not_gives_error (e : Failure) (status : Nat) : ¬ Gives (.error e) status := by
  simp [Gives]

/-- What the two routes for sketches come to for a body, as told by its fields, the selection, the
catalog and the clock. -/
structure Settled (rules : Rules) (home : PathName) (clock : Clock) (fields : List (String × Value))
    (inline download : Except Failure Answer) : Prop where
  malformed_iff : Gives inline 422 ↔ Misfit rules fields
  malformed : ∀ cs, inline = .ok (.malformed cs) → cs = complaints rules fields
  refused_iff : Gives inline 400 ↔ ∃ r : Request, r.Fits rules fields ∧ ∃ e, r.plan home = .error e
  refused : ∀ detail, inline = .ok (.refused detail) →
    ∃ r : Request, r.Fits rules fields ∧ ∃ e, r.plan home = .error e ∧ detail = e.message
  given_iff : Gives inline 200 ↔ ∃ r : Request, r.Fits rules fields ∧
    (∃ p, r.plan home = .ok p) ∧ ∃ m, clock.momentOf none = .ok m
  failed_iff : ∀ e, inline = .error e ↔ ∃ r : Request, r.Fits rules fields ∧
    (∃ p, r.plan home = .ok p) ∧ ∃ f, clock.momentOf none = .error f ∧ e = .time f
  /-- Both routes say the same, or give the same sketch under the same name. -/
  alike : ¬ Gives inline 200 ∧ download = inline ∨
    ∃ (r : Request) (p : Plan) (m : Clock.Moment) (sketch : Sketch), r.Fits rules fields ∧
      r.plan home = .ok p ∧ clock.momentOf none = .ok m ∧
      Sketch.ofPlan p (.text r.filename) (some (.int r.baud)) m = .ok sketch ∧
      inline = .ok (.record (.record
        [("filename", .text (r.filename ++ Settings.extension)), ("sketch", .text sketch.text)])) ∧
      download = .ok (.attachment (r.filename ++ Settings.extension) sketch.text)

theorem settled (rules : Rules) (home : PathName) (clock : Clock) (fields : List (String × Value)) :
    Settled rules home clock fields
      (respond (Catalog.shipped home) clock fields .generate rules).result
      (respond (Catalog.shipped home) clock fields .download rules).result := by
  simp only [respond]
  by_cases hmisfit : Misfit rules fields
  · have hnone : ∀ r : Request, ¬ r.Fits rules fields := not_exists.1 (not_exists_fits_iff.2 hmisfit)
    rw [answerSketch_of_misfit hmisfit, answerSketch_of_misfit hmisfit]
    refine ⟨?_, ?_, ?_, ?_, ?_, ?_, .inl ⟨?_, rfl⟩⟩ <;>
      simp [gives_ok_iff, Answer.status, hmisfit, hnone]
  obtain ⟨r, hr⟩ := not_not.1 (mt not_exists_fits_iff.1 hmisfit)
  -- the only request that the body fits
  have hexists : ∀ P : Request → Prop, (∃ r, r.Fits rules fields ∧ P r) ↔ P r := fun P =>
    ⟨fun ⟨r', hr', h⟩ => hr.unique hr' ▸ h, fun h => ⟨r, hr, h⟩⟩
  cases hp : r.plan home with
  | error e =>
    rw [answerSketch_of_plan_error _ hr hp, answerSketch_of_plan_error _ hr hp]
    refine ⟨?_, ?_, ?_, ?_, ?_, ?_, .inl ⟨?_, rfl⟩⟩ <;>
      simp [gives_ok_iff, Answer.status, hmisfit, hexists, hp, eq_comm]
  | ok p =>
    cases hm : clock.momentOf none with
    | error f =>
      rw [answerSketch_of_time_error _ hr hp hm, answerSketch_of_time_error _ hr hp hm]
      refine ⟨?_, ?_, ?_, ?_, ?_, ?_, .inl ⟨?_, rfl⟩⟩ <;>
        simp [not_gives_error, hmisfit, hexists, hp, hm, eq_comm]
    | ok m =>
      obtain ⟨s, sketch, hname, hsketch, hanswer⟩ := answerSketch_of_moment hr hp hm
      rw [hanswer, hanswer, hname]
      refine ⟨?_, ?_, ?_, ?_, ?_, ?_, .inr ⟨r, p, m, sketch, hr, hp, hm, hsketch, rfl, rfl⟩⟩ <;>
        simp [gives_ok_iff, Answer.status, hmisfit, hexists, hp, hm]

end Web

end FirmataSketch
