import FirmataSketch.Proofs.Messages
import FirmataSketch.Proofs.Sketch.Characters
import FirmataSketch.Proofs.Web.Requests

/-! Replies: what comes back for requests through the framework around the routes. Plain bodies are read,
and the answers to them are plain, so they are sent. -/

namespace FirmataSketch

open Disk (PathName)
open Outcome (bind_ok bind_error mapError_ok mapError_error)
open Text (IsLine IsEncodable)

namespace Value

variable {spelling : Text.Spelling} {levels : Nat} {fields : List (String × Value)}

theorem isPlain_text_iff {s : String} :
    (Value.text s).isPlain spelling levels = true ↔ IsEncodable s spelling := by
  cases levels <;> simp [isPlain]

theorem isPlain_of_mem {items : List Value} (h : (Value.list items).isPlain spelling levels = true)
    {v : Value} (hv : v ∈ items) : ∃ below, v.isPlain spelling below = true := by
  cases levels with
  | zero => cases h
  | succ below =>
    rw [isPlain, List.all_eq_true] at h
    exact ⟨below, h v hv⟩

theorem isPlain_record_iff : (Value.record fields).isPlain spelling levels = true ↔
    ∃ below, levels = below + 1 ∧
      ∀ field ∈ fields, IsEncodable field.1 spelling ∧ field.2.isPlain spelling below = true := by
  cases levels with
  | zero => simp [isPlain]
  | succ below => simp [isPlain]

theorem isPlain_of_lookup (h : (Value.record fields).isPlain spelling levels = true) {name : String}
    {v : Value} (hv : fields.lookup name = some v) : ∃ below, v.isPlain spelling below = true := by
  obtain ⟨before, after, hsplit, -⟩ := List.lookup_eq_some_iff.1 hv
  obtain ⟨below, -, hfields⟩ := isPlain_record_iff.1 h
  exact ⟨below, (hfields (name, v) (by simp [hsplit])).2⟩

end Value

namespace Web

variable {f : Framework} {home : PathName} {clock : Clock} {fields : List (String × Value)} {r : Request}
  {p : Plan} {m : Clock.Moment} {e : Failure}

/-- The names of features that a plain body asks for can be encoded. -/
theorem isEncodable_of_fits (hr : r.Fits f.rules fields)
    (hplain : (Value.record fields).isPlain f.spelling f.levels = true) :
    ∀ s ∈ r.features, IsEncodable s f.spelling := by
  obtain ⟨items, hitems, htexts⟩ := hr.features
  rw [f.rules.items_ok_iff] at hitems
  intro s hs
  have hmem : .ok s ∈ items.map f.rules.text := htexts ▸ List.mem_map_of_mem hs
  obtain ⟨v, hv, hvs⟩ := List.mem_map.1 hmem
  obtain rfl := f.rules.text_eq v s hvs
  rw [Value.fieldOr] at hitems
  cases hfeatures : fields.lookup "features" with
  | none =>
    rw [hfeatures, Option.getD_none, Value.list.injEq] at hitems
    rw [← hitems] at hv
    cases hv
  | some w =>
    rw [hfeatures, Option.getD_some] at hitems
    subst hitems
    obtain ⟨below, hlist⟩ := Value.isPlain_of_lookup hplain hfeatures
    obtain ⟨below', htext⟩ := Value.isPlain_of_mem hlist hv
    exact Value.isPlain_text_iff.1 htext

/-- Reasons to refuse a request show nothing but the names of features as they are. -/
theorem isEncodable_of_plan_error {spelling : Text.Spelling} (h : r.plan home = .error e)
    (hnames : ∀ s ∈ r.features, IsEncodable s spelling) : IsEncodable e.message spelling := by
  rcases bind_error h with hs | ⟨s, hs, hp⟩
  · rw [Selection.make_texts] at hs
    obtain ⟨fault, -, rfl⟩ := mapError_error hs
    exact fault.isClean_message.2.inSpelling spelling
  · rw [Selection.make_texts] at hs
    obtain ⟨-, -, hfeatures⟩ := Selection.ofParts_ok (mapError_ok hs)
    obtain ⟨name, hname, he⟩ := Plan.resolve_texts_error hp
    have hshown {before after : String} (hb : IsEncodable before) (ha : IsEncodable after) :
        IsEncodable (before ++ name ++ after) spelling :=
      Text.isEncodable_append.2 ⟨Text.isEncodable_append.2 ⟨hb.inSpelling spelling,
        hnames name (hfeatures ▸ hname)⟩, ha.inSpelling spelling⟩
    rcases he with rfl | rfl
    · exact hshown (by decide) (by decide)
    · exact hshown (by decide) (by decide)

/-- A sketch can be encoded if the name of the zone can. -/
theorem isEncodable_of_plan {spelling : Text.Spelling} {sketch : Sketch} (hp : r.plan home = .ok p)
    (hm : clock.momentOf none = .ok m) (hzone : IsEncodable m.zone.name spelling)
    (h : Sketch.ofPlan p (.text r.filename) (some (.int r.baud)) m = .ok sketch) :
    IsEncodable sketch.text spelling := by
  refine Text.isEncodable_of_document fun hspelling => ?_
  subst hspelling
  obtain ⟨s, hs, -, hdraft, hresolve⟩ := selection_of_plan hp
  have hsketch : (s.draft.sketch (Catalog.shippedIndex home) clock none).result = .ok sketch := by
    rw [Draft.sketch_of_ofPlan hresolve hm (by rwa [hdraft])]
  exact Selection.isEncodable_sketch (Selection.acceptsWord_of_make hs) hm hzone hsketch

theorem acceptsWord_of_plan (hp : r.plan home = .ok p) : Text.acceptsWord r.filename = true := by
  obtain ⟨s, hs, -⟩ := bind_ok hp
  exact (Selection.ofParts_ok (mapError_ok ((Selection.make_texts ..).symm.trans hs))).1

/-- A file name without a line end can stand in the head of an answer. -/
theorem isVisible_extended {name : String} (h : Text.acceptsWord name = true) (hline : IsLine name) :
    (name ++ Settings.extension).toList.all isVisible = true := by
  have hcommon {c : Char} (hc : Text.IsCommon c) : isVisible c = true := by
    simp only [isVisible, Bool.and_eq_true, decide_eq_true_eq]
    exact hc
  rw [String.toList_append, List.all_append, Bool.and_eq_true, List.all_eq_true]
  refine ⟨fun c hc => hcommon ?_, by decide⟩
  rcases Text.acceptsWord_cases h with hword | ⟨w, -, rfl⟩
  · exact Text.isCommon_of_isWordPart (Text.isWordPart_of_mem hword hc)
  · exact absurd (by simp) hline

theorem isLine_of_fits (hr : r.Fits f.rules fields)
    (hline : ∀ name, fields.lookup "filename" = some (.text name) → IsLine name) :
    IsLine r.filename := by
  have hvalue := f.rules.text_eq _ _ hr.filename
  rw [Value.fieldOr] at hvalue
  cases hlookup : fields.lookup "filename" with
  | none =>
    rw [hlookup, Option.getD_none, Value.text.injEq] at hvalue
    rw [← hvalue]
    decide
  | some v =>
    rw [hlookup, Option.getD_some] at hvalue
    exact hline _ (hvalue ▸ hlookup)

/-- The answers to a plain body are plain. Only the head of an attachment shows its file name, which must
not end in a line end then. -/
theorem Settled.isPlain {inline download : Except Failure Answer}
    (h : Settled f.rules home clock fields inline download)
    (hplain : (Value.record fields).isPlain f.spelling f.levels = true)
    (hzone : ∀ m, clock.momentOf none = .ok m → IsEncodable m.zone.name f.spelling) :
    (∀ a, inline = .ok a → a.isPlain f.spelling f.levels = true) ∧
      ((∀ name, fields.lookup "filename" = some (.text name) → IsLine name) →
        ∀ a, download = .ok a → a.isPlain f.spelling f.levels = true) := by
  rcases h.alike with ⟨hnot, rfl⟩ | ⟨r, p, m, sketch, hr, hp, hm, hsketch, rfl, rfl⟩
  · have hall : ∀ a, download = .ok a → a.isPlain f.spelling f.levels = true := by
      rintro a rfl
      cases a with
      | record body => exact absurd ⟨_, rfl, rfl⟩ hnot
      | attachment filename content => exact absurd ⟨_, rfl, rfl⟩ hnot
      | refused detail =>
        obtain ⟨r, hr, e, hp, rfl⟩ := h.refused detail rfl
        exact decide_eq_true (isEncodable_of_plan_error hp (isEncodable_of_fits hr hplain))
      | malformed cs => rfl
    exact ⟨hall, fun _ => hall⟩
  · have htext := isEncodable_of_plan hp hm (hzone m hm) hsketch
    have hword := acceptsWord_of_plan hp
    have hname : IsEncodable (r.filename ++ Settings.extension) f.spelling :=
      Text.isEncodable_append.2 ⟨(Text.isEncodable_of_acceptsWord hword).inSpelling _,
        Text.IsEncodable.inSpelling (by decide) _⟩
    obtain ⟨below, hlevels, -⟩ := Value.isPlain_record_iff.1 hplain
    refine ⟨?_, fun hline => ?_⟩
    · rintro _ ⟨⟩
      have hkey (key : String) (h : IsEncodable key) : IsEncodable key f.spelling := h.inSpelling _
      refine Value.isPlain_record_iff.2 ⟨below, hlevels, fun field hfield => ?_⟩
      rw [List.mem_cons, List.mem_singleton] at hfield
      rcases hfield with rfl | rfl
      · exact ⟨hkey "filename" (by decide), Value.isPlain_text_iff.2 hname⟩
      · exact ⟨hkey "sketch" (by decide), Value.isPlain_text_iff.2 htext⟩
    · rintro _ ⟨⟩
      rw [Answer.isPlain, isVisible_extended hword (isLine_of_fits hr hline), decide_eq_true htext]
      rfl

theorem map_send {answer : Except Failure Answer}
    (h : ∀ a, answer = .ok a → f.writes fields a = true) :
    answer.map (f.send fields) = answer.map .sent := by
  cases answer with
  | error e => rfl
  | ok a =>
    have hsend : f.send fields a = .sent a := if_pos (h a rfl)
    exact congrArg Except.ok hsend

/-- What comes back from the two routes for sketches. If the body is read, they are settled, and their
answers are sent if the framework can write them; to a plain body it can write each of them. -/
structure Replied (f : Framework) (home : PathName) (clock : Clock) (fields : List (String × Value))
    (inline download : Except Failure Reply) : Prop where
  unread : f.reads fields = false → inline = .ok .unread ∧ download = .ok .unread
  read : f.reads fields = true → ∃ answer attachment,
    Settled f.rules home clock fields answer attachment ∧
      inline = answer.map (f.send fields) ∧ download = attachment.map (f.send fields)
  plain : (Value.record fields).isPlain f.spelling f.levels = true →
    (∀ m, clock.momentOf none = .ok m → IsEncodable m.zone.name f.spelling) →
    ∃ answer attachment, Settled f.rules home clock fields answer attachment ∧
      inline = answer.map .sent ∧
      ((∀ name, fields.lookup "filename" = some (.text name) → IsLine name) →
        download = attachment.map .sent)

/-- The routes for sketches have bodies. -/
theorem isRead_of_sketch {route : Route} (hroute : route = .generate ∨ route = .download) :
    Inquiry.isRead ⟨route, fields⟩ f = f.reads fields := by
  rcases hroute with rfl | rfl <;> rfl

theorem reply_of_unread (hreads : f.reads fields = false) {route : Route}
    (hroute : route = .generate ∨ route = .download) :
    (Server.reply { home, framework := f } clock ⟨route, fields⟩).1.result = .ok .unread := by
  rw [Server.reply, isRead_of_sketch hroute, hreads]
  rfl

theorem reply_of_reads (hreads : f.reads fields = true) {route : Route}
    (hroute : route = .generate ∨ route = .download) :
    (Server.reply { home, framework := f } clock ⟨route, fields⟩).1.result =
      (respond (Catalog.shipped home) clock fields route f.rules).result.map (f.send fields) := by
  rw [Server.reply, isRead_of_sketch hroute, hreads]
  rfl

theorem replied (f : Framework) (home : PathName) (clock : Clock) (fields : List (String × Value)) :
    Replied f home clock fields
      (Server.reply { home, framework := f } clock ⟨.generate, fields⟩).1.result
      (Server.reply { home, framework := f } clock ⟨.download, fields⟩).1.result := by
  have hsettled := settled f.rules home clock fields
  refine ⟨fun hreads => ?_, fun hreads => ?_, fun hplain hzone => ?_⟩
  · exact ⟨reply_of_unread hreads (.inl rfl), reply_of_unread hreads (.inr rfl)⟩
  · rw [reply_of_reads hreads (.inl rfl), reply_of_reads hreads (.inr rfl)]
    exact ⟨_, _, hsettled, rfl, rfl⟩
  · have hreads := f.reads_of_isPlain fields hplain
    obtain ⟨hinline, hdownload⟩ := hsettled.isPlain hplain hzone
    rw [reply_of_reads hreads (.inl rfl), reply_of_reads hreads (.inr rfl)]
    exact ⟨_, _, hsettled, map_send fun a ha => f.writes_of_isPlain fields a hplain (hinline a ha),
      fun hline => map_send fun a ha => f.writes_of_isPlain fields a hplain (hdownload hline a ha)⟩

/-- No reply depends on earlier requests. A body of a request for a sketch that is read is complained
about if it does not fit; else the request is refused if there is no selection or a feature is not
found; else it is given the sketch, unless the clock cannot show the time. -/
theorem requests_settled (f : Framework) (home : PathName) (clock : Clock) :
    (∀ qs, Server.replies { home, framework := f } clock qs =
      qs.map fun q => (Server.reply { home, framework := f } clock q).1) ∧
    ∀ fields, Replied f home clock fields
      (Server.reply { home, framework := f } clock ⟨.generate, fields⟩).1.result
      (Server.reply { home, framework := f } clock ⟨.download, fields⟩).1.result :=
  ⟨(Server.faithful_start home f).replies clock, replied f home clock⟩

/-- A framework with the usual rules that writes plain answers to plain bodies, and no others. -/
def Framework.strict : Framework where
  rules := .usual
  spelling := .document
  levels := 500
  reads _ := true
  writes fields answer :=
    (Value.record fields).isPlain .document 500 && answer.isPlain .document 500
  reads_of_isPlain _ _ := rfl
  writes_of_isPlain fields answer hfields hanswer := by
    rw [hfields, hanswer]
    rfl

def epochClock : Clock := ⟨.moment .epoch, .utc⟩

/-- The replies of a server without an installation folder. -/
def strictReply (clock : Clock) (route : Route) (fields : List (String × Value)) :
    Except Failure Reply :=
  (Server.reply { home := ⟨.root, []⟩, framework := .strict } clock ⟨route, fields⟩).1.result

theorem requests_settled_lamp :
    (Value.record [("filename", .text "Lamp")]).isPlain .document 500 = true ∧
    ∃ content attachment, strictReply epochClock .generate [("filename", .text "Lamp")] =
        .ok (.sent (.record content)) ∧
      strictReply epochClock .download [("filename", .text "Lamp")] =
        .ok (.sent (.attachment "Lamp.ino" attachment)) := by
  have hplain : (Value.record [("filename", .text "Lamp")]).isPlain .document 500 = true := by decide
  obtain ⟨m, hm, hzone⟩ : ∃ m, epochClock.momentOf none = .ok m ∧ IsEncodable m.zone.name :=
    ⟨_, rfl, by decide⟩
  have hfits : Request.Fits ⟨"Lamp", Settings.defaultBaud, []⟩ .usual [("filename", .text "Lamp")] :=
    ⟨rfl, rfl, [], rfl, rfl⟩
  have hplan : Request.plan ⟨"Lamp", Settings.defaultBaud, []⟩ ⟨.root, []⟩ = .ok .empty := rfl
  obtain ⟨answer, attachment, hsettled, hinline, hdownload⟩ :=
    ((requests_settled .strict ⟨.root, []⟩ epochClock).2 [("filename", .text "Lamp")]).plain hplain
      fun m' hm' => Except.ok.inj (hm.symm.trans hm') ▸ hzone
  have hgiven := hsettled.given_iff.2 ⟨_, hfits, ⟨_, hplan⟩, m, hm⟩
  rcases hsettled.alike with ⟨hnot, -⟩ | ⟨r, p, m, sketch, hr, -, -, -, rfl, rfl⟩
  · exact absurd hgiven hnot
  · cases hfits.unique hr
    exact ⟨hplain, _, _, hinline, hdownload fun name hname => by cases hname; decide⟩

/-- In the first hours of the calendar a clock to the west shows no time. -/
def earlyClock : Clock := ⟨.moment ⟨⟨⟨1, 1, 1⟩, 0, 0, 0⟩, .utc⟩, ⟨-18000, "EST"⟩⟩

theorem send_strict (h : (Value.record fields).isPlain .document 500 = false) (answer : Answer) :
    Framework.strict.send fields answer = .unsent := by
  have hwrites : Framework.strict.writes fields answer = false := Bool.and_eq_false_iff.2 (.inl h)
  rw [Framework.send, hwrites]
  rfl

theorem strictReply_eq (clock : Clock) (fields : List (String × Value)) :
    strictReply clock .generate fields =
      (respond (Catalog.shipped ⟨.root, []⟩) clock fields .generate .usual).result.map
        (Framework.strict.send fields) :=
  reply_of_reads rfl (.inl rfl)

/-- The name of a feature has a surrogate in it, so there is no such feature, but the reason cannot be
told. A baud is infinite, so it does not fit, but the complaint cannot be told. Nothing is wrong with a
third body, but the clock shows no time. -/
theorem unsent_replies :
    ((∃ r : Request, r.Fits .usual [("features", .list [.text Text.loneSurrogate])] ∧
        ∃ e, r.plan ⟨.root, []⟩ = .error e) ∧
      strictReply epochClock .generate [("features", .list [.text Text.loneSurrogate])] =
        .ok .unsent) ∧
    (Misfit .usual [("baud", .real (.infinite false))] ∧
      strictReply epochClock .generate [("baud", .real (.infinite false))] = .ok .unsent) ∧
    ¬ Misfit .usual [] ∧
      (∃ r : Request, r.Fits .usual [] ∧ r.plan ⟨.root, []⟩ = .ok .empty) ∧
      strictReply earlyClock .generate [] = .error (.time .range) := by
  have hlone : Request.Fits ⟨Settings.defaultFilename, Settings.defaultBaud, [Text.loneSurrogate]⟩
      .usual [("features", .list [.text Text.loneSurrogate])] :=
    ⟨rfl, rfl, [.text Text.loneSurrogate], rfl, rfl⟩
  have hunknown : Request.plan ⟨Settings.defaultFilename, Settings.defaultBaud, [Text.loneSurrogate]⟩
      ⟨.root, []⟩ = .error (.unknownFeature (.text Text.loneSurrogate)) := rfl
  have hmisfit : Misfit .usual [("baud", .real (.infinite false))] :=
    .inr (.inl ⟨_, rfl, fun n hn => nomatch hn⟩)
  have hempty : Request.Fits ⟨Settings.defaultFilename, Settings.defaultBaud, []⟩ .usual [] :=
    ⟨rfl, rfl, [], rfl, rfl⟩
  have hplan : Request.plan ⟨Settings.defaultFilename, Settings.defaultBaud, []⟩ ⟨.root, []⟩ =
      .ok .empty := rfl
  have htime : earlyClock.momentOf none = .error .range := by decide
  refine ⟨⟨⟨_, hlone, _, hunknown⟩, ?_⟩, ⟨hmisfit, ?_⟩, fun h => not_exists_fits_iff.2 h ⟨_, hempty⟩,
    ⟨_, hempty, hplan⟩, ?_⟩
  · rw [strictReply_eq, respond, answerSketch_of_plan_error _ hlone hunknown]
    exact congrArg Except.ok (send_strict (by decide) _)
  · rw [strictReply_eq, respond, answerSketch_of_misfit hmisfit]
    exact congrArg Except.ok (send_strict rfl _)
  · rw [strictReply_eq, respond, answerSketch_of_time_error _ hempty hplan htime]
    rfl

end Web

end FirmataSketch
