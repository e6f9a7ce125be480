import FirmataSketch.Proofs.Catalog.Loading
import FirmataSketch.Proofs.Selection.Made
import FirmataSketch.Proofs.Sketch.Drawing
import FirmataSketch.Proofs.Sketch.Globals
import FirmataSketch.Proofs.Sketch.Growth
import FirmataSketch.Proofs.Text.Integer
import Mathlib.Data.List.DropRight

/-! Decoding: a selection can be read back from its sketch. Paths, class names and libraries may be
any texts, also texts that look like a set-up, but they stand before the set-up. After it nothing
looks like one, so the last set-up in the text is the real one, and what it registers tells the
features. -/

namespace FirmataSketch

open Disk (PathName)
open Outcome (ok_of_toOption map_ok)
open Text (IsLine isLine_append acceptsWord isWord)

theorem eq_of_map_eq {α β : Type} {f : α → β} {xs ys : List α}
    (hf : ∀ x ∈ xs, ∀ y ∈ ys, f x = f y → x = y) (h : xs.map f = ys.map f) : xs = ys := by
  have hlength : xs.length = ys.length := by simpa using congrArg List.length h
  refine List.ext_getElem hlength fun i hi hj => ?_
  have hsame : f xs[i] = f ys[i] := by simpa [hi, hj] using congrArg (·[i]?) h
  exact hf _ (List.getElem_mem hi) _ (List.getElem_mem hj) hsame

theorem flatMap_filter_of_nil {α β : Type} {q : α → Bool} {g : α → List β} {xs : List α}
    (h : ∀ x ∈ xs, q x = false → g x = []) : (xs.filter q).flatMap g = xs.flatMap g := by
  induction xs with
  | nil => rfl
  | cons x xs ih =>
    have hrest := ih fun y hy => h y (List.mem_cons_of_mem x hy)
    cases hx : q x with
    | true => rw [List.filter_cons_of_pos hx, List.flatMap_cons, List.flatMap_cons, hrest]
    | false =>
      rw [List.filter_cons_of_neg (by simp [hx]), List.flatMap_cons, hrest,
        h x List.mem_cons_self hx, List.nil_append]

namespace Text

theorem takeWhile_stop {α : Type} [BEq α] [LawfulBEq α] {stop : α} {xs : List α} (h : stop ∉ xs)
    (ys : List α) : (xs ++ stop :: ys).takeWhile (· != stop) = xs := by
  have hall : ∀ x ∈ xs, (x != stop) = true := fun x hx => bne_iff_ne.2 fun e => h (e ▸ hx)
  rw [List.takeWhile_append_of_pos hall, List.takeWhile_cons, if_neg (by simp), List.append_nil]

/-- The lines after the last one that is `start`, up to the first one that is `stop`. -/
def between (start stop : String) (ls : List String) : List String :=
  (ls.rtakeWhile (· != start)).takeWhile (· != stop)

theorem between_eq {start stop : String} {body rest : List String} (hstart : start ≠ stop)
    (hbody : start ∉ body ∧ stop ∉ body) (hrest : start ∉ rest) (before : List String) :
    between start stop (before ++ start :: body ++ stop :: rest) = body := by
  have hafter : start ∉ (body ++ stop :: rest).reverse := by
    simp [hbody.1, hstart, hrest]
  have hlast : (before ++ start :: body ++ stop :: rest).rtakeWhile (· != start) =
      body ++ stop :: rest := by
    have hreverse : (before ++ start :: body ++ stop :: rest).reverse =
        (body ++ stop :: rest).reverse ++ start :: before.reverse := by simp
    rw [List.rtakeWhile, hreverse, takeWhile_stop hafter, List.reverse_reverse]
  rw [between, hlast, takeWhile_stop hbody.2]

end Text

namespace Plan

open Sketch

/-- The first of the lines that a registration is in a text. -/
def registerStart (instanceName : String) : String :=
  (Text.lines (registerLine instanceName ++ "\n")).headD ""

theorem lines_registerLine {x : String} (h : acceptsWord x = true) :
    isWord x.toList = true ∧ Text.lines (registerLine x ++ "\n") = [registerLine x] ∨
      ∃ w, isWord w.toList = true ∧ x = w ++ "\n" ∧
        Text.lines (registerLine x ++ "\n") = [registerOpen ++ w, ");"] :=
  Text.lines_name (by decide) (by decide) h

/-- The start of a registration tells the instance: a name has no bracket that would end it. -/
theorem registerStart_inj {x y : String} (hx : acceptsWord x = true) (hy : acceptsWord y = true)
    (h : registerStart x = registerStart y) : x = y := by
  have hne {v w : String} (hw : isWord w.toList = true) : registerLine v ≠ registerOpen ++ w := by
    intro hvw
    rw [registerLine, String.append_assoc, String.append_right_inj] at hvw
    exact Text.not_mem_of_isWord hw (c := ')') (by decide) (hvw ▸ by simp)
  unfold registerStart at h
  rcases lines_registerLine hx with ⟨-, hlines⟩ | ⟨v, hv, rfl, hlines⟩ <;>
    rcases lines_registerLine hy with ⟨-, hlines'⟩ | ⟨w, hw, rfl, hlines'⟩ <;>
    rw [hlines, hlines', List.headD_cons, List.headD_cons] at h
  · exact registerLine_inj.1 h
  · exact absurd h (hne hw)
  · exact absurd h.symm (hne hv)
  · rw [(String.append_right_inj registerOpen).1 h]

theorem registrations_registerLine {x : String} (h : acceptsWord x = true) :
    (Text.lines (registerLine x ++ "\n")).filter isRegistration = [registerStart x] := by
  have hclose : isRegistration ");" = false := by decide
  unfold registerStart
  rcases lines_registerLine h with ⟨-, hlines⟩ | ⟨w, -, -, hlines⟩
  · rw [hlines]
    simp [isRegistration_registerLine]
  · rw [hlines]
    simp [isRegistration_append, hclose]

/-- The set-up of the plan can be read from a text. -/
structure Legible (p : Plan) (baud : Option Value) : Prop where
  consistent : p.Consistent
  words : ∀ f ∈ p.features, acceptsWord f.instanceText = true
  isLine_baud : ∀ b ∈ baud, IsLine b.display

theorem IsInner.lines_text {l : String} (h : IsInner l) :
    ∀ l' ∈ Text.lines (l ++ "\n"), IsInner l' := by
  rw [Text.lines_of_isLine h.1]
  exact List.forall_mem_singleton.2 h

/-- A line with an accepted name in it is not the first line of a function in a text either. -/
theorem isInner_name {a b x : String} (ha : IsLine a ∧ a.toList.head? = some ' ') (hb : IsInner b)
    (hx : acceptsWord x = true) : ∀ l ∈ Text.lines (a ++ x ++ b ++ "\n"), IsInner l := by
  have hstart (t : String) : (a ++ t).toList.head? ≠ some 'v' := by simp [List.head?_append, ha.2]
  have hline {w : String} (hw : isWord w.toList = true) : IsLine (a ++ w) :=
    isLine_append.2 ⟨ha.1, Text.not_mem_of_isWord hw (by decide)⟩
  intro l hl
  rcases Text.lines_name ha.1 hb.1 hx with ⟨hw, hlines⟩ | ⟨w, hw, -, hlines⟩ <;> rw [hlines] at hl
  · rw [List.mem_singleton.1 hl]
    exact ⟨isLine_append.2 ⟨hline hw, hb.1⟩, String.append_assoc ▸ hstart _⟩
  · rcases List.mem_cons.1 hl with rfl | hl
    · exact ⟨hline hw, hstart w⟩
    · exact List.mem_singleton.1 hl ▸ hb

theorem lines_text_inner {b : Block} {first : String} {body : List String} (hfirst : IsLine first)
    (h : b.lines = first :: body)
    (hbody : ∀ l ∈ body, ∀ l' ∈ Text.lines (l ++ "\n"), IsInner l') :
    ∃ inner, Text.lines b.text = first :: inner ∧ ∀ l ∈ inner, IsInner l := by
  refine ⟨_, ?_, List.forall_mem_flatMap.2 hbody⟩
  rw [Block.text, Text.lines_unlines_eq_flatMap, h, List.flatMap_cons, Text.lines_of_isLine hfirst]
  rfl

namespace Legible

variable {p q : Plan} {baud baud' : Option Value}

theorem acceptsWord_registered (h : p.Legible baud) :
    ∀ x ∈ (p.setup baud).registered, acceptsWord x = true := by
  rw [registered_setup, List.forall_mem_append, List.forall_mem_map]
  refine ⟨h.words, ?_⟩
  cases p.reportingEnabled <;> decide

/-- The text of a set-up has the registrations of the set-up, one after the other. -/
theorem registrations_text (h : p.Legible baud) :
    (Text.lines (p.setup baud).text).filter isRegistration =
      (p.setup baud).registered.map registerStart := by
  have hlines : (p.setup baud).lines.filter isRegistration =
      (p.setup baud).registered.map registerLine := by
    rw [registrations_setup, registered_setup]
    cases p.reportingEnabled <;> simp
  have hother : ∀ l ∈ (p.setup baud).lines, isRegistration l = false →
      (Text.lines (l ++ "\n")).filter isRegistration = [] := by
    obtain ⟨body, hsetup, hbody⟩ := p.lines_setup_cases h.isLine_baud
    rw [hsetup, List.forall_mem_cons]
    refine ⟨fun _ => by decide, fun l hl hno => ?_⟩
    rcases hbody l hl with hinner | ⟨f, -, rfl⟩
    · rw [Text.lines_of_isLine hinner.1]
      simp [hno]
    · rw [isRegistration_registerLine] at hno
      cases hno
  rw [Block.text, Text.lines_unlines_eq_flatMap, List.filter_flatMap,
    ← flatMap_filter_of_nil hother, hlines, List.flatMap_map,
    List.flatMap_congr fun x hx => registrations_registerLine (h.acceptsWord_registered x hx)]
  exact List.flatMap_pure_eq_map _ _

theorem registered_eq (hp : p.Legible baud) (hq : q.Legible baud')
    (h : Text.lines (p.setup baud).text = Text.lines (q.setup baud').text) :
    (p.setup baud).registered = (q.setup baud').registered := by
  have hstarts := hp.registrations_text
  rw [h, hq.registrations_text] at hstarts
  refine eq_of_map_eq (fun x hx y hy hxy => ?_) hstarts.symm
  exact registerStart_inj (hp.acceptsWord_registered x hx) (hq.acceptsWord_registered y hy) hxy

theorem setup_text_inner (h : p.Legible baud) :
    ∃ inner, Text.lines (p.setup baud).text = "void setup()" :: inner ∧ ∀ l ∈ inner, IsInner l := by
  obtain ⟨body, hsetup, hbody⟩ := p.lines_setup_cases h.isLine_baud
  refine lines_text_inner (by decide) hsetup fun l hl => ?_
  rcases hbody l hl with hinner | ⟨f, hf, rfl⟩
  · exact hinner.lines_text
  · exact isInner_name (by decide) (by decide) (h.words f hf)

theorem loop_text_inner (h : p.Legible baud) :
    ∃ inner, Text.lines (Block.text [.define "loop" p.loopCode]) = "void loop()" :: inner ∧
      ∀ l ∈ inner, IsInner l := by
  obtain ⟨body, hloop, hbody⟩ := h.consistent.lines_loop_cases
  refine lines_text_inner (by decide) hloop fun l hl => ?_
  rcases hbody l hl with hinner | ⟨f, hf, depth, action, haction, rfl⟩
  · exact hinner.lines_text
  · have hcall : f.actLine (depth + 1) action =
        indented (depth + 1) "" ++ f.instanceText ++ ("." ++ action ++ "();") := by
      rw [Feature.actLine, ← indented_append, ← indented_append, String.empty_append,
        String.append_assoc, String.append_assoc, String.append_assoc]
    have hspaces : IsLine (indented (depth + 1) "") ∧
        (indented (depth + 1) "").toList.head? = some ' ' := by
      refine ⟨isLine_append.2 ⟨Text.isLine_spaces _, by decide⟩, ?_⟩
      simp [indented, List.head?_replicate]
    have hactions : ∀ action ∈ ["report", "runTasks", "update"],
        IsInner ("." ++ action ++ "();") := by decide
    rw [hcall]
    exact isInner_name hspaces (hactions action haction) (h.words f hf)

end Legible

theorem isLine_display (n : Nat) : IsLine (Value.int n).display := by
  have hdigits : (Value.int n).display.toList = Nat.toDigits 10 n := Text.toList_decimal n
  rw [IsLine, hdigits]
  exact fun hmem => absurd (Text.mem_digits_of_mem_toDigits hmem) (by decide)

/-- For the same features only the baud can make a difference in the set-up. -/
theorem Consistent.baud_eq {p q : Plan} (hp : p.Consistent) (hq : q.Consistent)
    (hfeatures : p.features = q.features) {m n : Nat}
    (h : Text.lines (p.setup (some (.int m))).text = Text.lines (q.setup (some (.int n))).text) :
    m = n := by
  have hanalog : p.analogWrite = q.analogWrite := by
    rw [Bool.eq_iff_iff, hp.analogWrite_iff, hq.analogWrite_iff, hfeatures]
  have hreports : p.reportingEnabled = q.reportingEnabled := by
    rw [← hp.any_reporting, ← hq.any_reporting, hfeatures]
  have hbegin (n : Nat) : Text.lines ("  Firmata.begin(" ++ (Value.int n).display ++ ");" ++ "\n") =
      ["  Firmata.begin(" ++ Text.decimal n ++ ");"] :=
    Text.lines_of_isLine (isLine_append.2 ⟨isLine_append.2 ⟨by decide, isLine_display n⟩, by decide⟩)
  rw [Block.text, Block.text, Text.lines_unlines_eq_flatMap, Text.lines_unlines_eq_flatMap,
    lines_setup, lines_setup, hanalog, hreports, hfeatures] at h
  simp only [List.flatMap_append, List.append_cancel_left_eq, List.append_cancel_right_eq,
    List.flatMap_cons, hbegin] at h
  rw [List.singleton_inj, String.append_left_inj, String.append_right_inj] at h
  exact Text.decimal_inj h

end Plan

namespace Sketch.IsOf

variable {s t : Sketch} {p q : Plan} {d e : Draft} {m m' : Clock.Moment}

/-- The set-up stands in a text from the last line that opens one up to the loop. -/
theorem lines_setup_text (h : s.IsOf p d m) (hp : p.Legible d.baud) :
    Text.lines s.setup.text =
      "void setup()" :: Text.between "void setup()" "void loop()" (Text.lines s.text) := by
  obtain ⟨ofSetup, hsetup, hinner⟩ := hp.setup_text_inner
  obtain ⟨ofLoop, hloop, hinner'⟩ := hp.loop_text_inner
  rw [← Except.ok.inj (h.loop.symm.trans hp.consistent.loop_eq)] at hloop
  rw [← h.setup] at hsetup
  obtain ⟨before, htext⟩ : ∃ before,
      Text.lines s.text = before ++ Text.lines s.setup.text ++ Text.lines s.loop.text := by
    refine ⟨(s.banner.lines ++ s.includes.lines ++ s.shared.lines ++ s.reset.lines).flatMap
      fun l => Text.lines (l ++ "\n"), ?_⟩
    rw [s.lines_text, Sketch.lines, List.flatMap_append, List.flatMap_append, Block.text, Block.text,
      Text.lines_unlines_eq_flatMap, Text.lines_unlines_eq_flatMap]
  have hopen {ls : List String} {l : String} (hls : ∀ l ∈ ls, Plan.IsInner l)
      (hl : ¬ Plan.IsInner l) : l ∉ ls := fun hmem => hl (hls l hmem)
  rw [htext, hsetup, hloop, Text.between_eq (by decide)
    ⟨hopen hinner (by decide), hopen hinner (by decide)⟩ (hopen hinner' (by decide))]

theorem setup_text_eq (hs : s.IsOf p d m) (ht : t.IsOf q e m') (hp : p.Legible d.baud)
    (hq : q.Legible e.baud) (htext : s.text = t.text) :
    Text.lines (p.setup d.baud).text = Text.lines (q.setup e.baud).text := by
  rw [← hs.setup, ← ht.setup, hs.lines_setup_text hp, ht.lines_setup_text hq, htext]

/-- The name of a sketch stands in its banner, up to the first dot. -/
theorem filename_text (h : s.IsOf p d m) {x : String} (hname : d.filename = .text x)
    (hx : acceptsWord x = true) :
    (s.text.toList.drop "/*\n * ".toList.length).takeWhile (· != '.') = x.toList := by
  have hdot : '.' ∉ x.toList := Text.not_mem_of_acceptsWord hx (by decide) (by decide)
  obtain ⟨rest, hrest⟩ : ∃ rest,
      s.text.toList = "/*\n * ".toList ++ (x.toList ++ '.' :: rest) := by
    obtain ⟨rest, hrest⟩ := h.text_start
    have hsketch : d.sketchFilename = x ++ ".ino" := by rw [Draft.sketchFilename, hname]; rfl
    rw [hrest, hsketch]
    refine ⟨"ino generated by FirmataBuilder\n".toList ++ rest.toList, ?_⟩
    simp [Text.unlines]
  rw [hrest, List.drop_left, Text.takeWhile_stop hdot]

theorem filename_eq (hs : s.IsOf p d m) (ht : t.IsOf q e m') {x y : String}
    (hx : d.filename = .text x) (hy : e.filename = .text y) (hword : acceptsWord x = true)
    (hword' : acceptsWord y = true) (htext : s.text = t.text) : x = y := by
  rw [← String.toList_inj, ← hs.filename_text hx hword, ← ht.filename_text hy hword', htext]

end Sketch.IsOf

namespace Catalog.Sound

variable {c : Catalog} {index : Index} {xs ys : List Value} {p q : Plan}

theorem legible (h : c.Sound) (hindex : c.index = .ok index) (hp : Plan.resolve index xs = .ok p)
    (n : Nat) : p.Legible (some (.int n)) := by
  refine ⟨Plan.resolve_consistent hp, h.words_of_resolve hindex hp, ?_⟩
  rintro b ⟨⟩
  exact Plan.isLine_display n

theorem eq_of_instanceText (h : c.Sound) (hindex : c.index = .ok index) {f g : Feature} {v w : Value}
    (hf : index.Finds v f) (hg : index.Finds w g) (hsame : f.instanceText = g.instanceText) :
    f = g := by
  obtain ⟨hfc, hfname⟩ := Index.Finds.mem hindex hf
  obtain ⟨hgc, hgname⟩ := Index.Finds.mem hindex hg
  obtain ⟨x, hx, -⟩ := h.named f hfc
  obtain ⟨y, hy, -⟩ := h.named g hgc
  have hxy : x = y := by
    rw [Feature.instanceText, Feature.instanceText, hx, hy] at hsame
    exact hsame
  have hname : f.name.key? = g.name.key? := h.own f hfc g hgc (by rw [hx, hy, hxy])
  obtain ⟨k, hk, hfk⟩ := hf
  obtain ⟨l, hl, hgl⟩ := hg
  rw [hfname, hgname, hk, hl, Option.some.injEq] at hname
  rw [hname, hgl, Option.some.injEq] at hfk
  exact hfk.symm

theorem reportingEnabled_of_registered (h : c.Sound) (hindex : c.index = .ok index)
    (hp : Plan.resolve index xs = .ok p) (hq : Plan.resolve index ys = .ok q)
    {baud baud' : Option Value}
    (hregistered : (p.setup baud).registered = (q.setup baud').registered)
    (hreports : p.reportingEnabled = true) : q.reportingEnabled = true := by
  by_contra hno
  obtain ⟨f, hf, hreporting⟩ := (Plan.resolve_consistent hp).reportingEnabled_iff.1 hreports
  have hmem : f.instanceText ∈ (q.setup baud').registered := by
    rw [← hregistered, Plan.registered_setup]
    exact List.mem_append_left _ (List.mem_map_of_mem hf)
  -- without reports only features are registered, so the feature that reports would be one of them
  rw [Plan.registered_setup, if_neg hno, List.append_nil] at hmem
  obtain ⟨g, hg, hsame⟩ := List.mem_map.1 hmem
  obtain ⟨v, -, hfound⟩ := (Plan.mem_features_of_resolve hp f).1 hf
  obtain ⟨w, -, hfound'⟩ := (Plan.mem_features_of_resolve hq g).1 hg
  have hfg : g = f := h.eq_of_instanceText hindex hfound' hfound hsame
  exact hno ((Plan.resolve_consistent hq).reportingEnabled_iff.2 ⟨g, hg, hfg ▸ hreporting⟩)

/-- What is registered tells the features, also if one of them is called like the instance that is
registered when there are reports. -/
theorem features_eq (h : c.Sound) (hindex : c.index = .ok index) (hp : Plan.resolve index xs = .ok p)
    (hq : Plan.resolve index ys = .ok q) {baud baud' : Option Value}
    (hregistered : (p.setup baud).registered = (q.setup baud').registered) :
    p.features = q.features := by
  have hreports : p.reportingEnabled = q.reportingEnabled := Bool.eq_iff_iff.2
    ⟨h.reportingEnabled_of_registered hindex hp hq hregistered,
      h.reportingEnabled_of_registered hindex hq hp hregistered.symm⟩
  rw [Plan.registered_setup, Plan.registered_setup, hreports, List.append_cancel_right_eq]
    at hregistered
  refine eq_of_map_eq (fun f hf g hg hsame => ?_) hregistered
  obtain ⟨v, -, hfound⟩ := (Plan.mem_features_of_resolve hp f).1 hf
  obtain ⟨w, -, hfound'⟩ := (Plan.mem_features_of_resolve hq g).1 hg
  exact h.eq_of_instanceText hindex hfound hfound' hsame

end Catalog.Sound

/-- The file name and the baud of a draft are valid. -/
structure Draft.Accepted (d : Draft) : Prop where
  filename : ∃ name, Selection.validateFilename d.filename = .ok name
  baud : ∃ b n, d.baud = some b ∧ Selection.validateBaud b = .ok n

theorem Draft.Accepted.parts {d : Draft} (h : d.Accepted) :
    ∃ name n, d.filename = .text name ∧ acceptsWord name = true ∧
      d.baud = some (.int (n : Nat)) := by
  obtain ⟨name, hname⟩ := h.filename
  obtain ⟨b, n, hb, hn⟩ := h.baud
  obtain ⟨htext, hword⟩ := Selection.validateFilename_ok hname
  exact ⟨name, n, htext, hword, hb.trans (congrArg some (Selection.validateBaud_ok hn))⟩

theorem Selection.eq_of_draft {s t : Selection} (hname : s.draft.filename = t.draft.filename)
    (hbaud : s.draft.baud = t.draft.baud)
    (hfeatures : s.draft.features.map Value.key? = t.draft.features.map Value.key?) : s = t := by
  have hkey : Function.Injective (Value.key? ∘ Value.text) := fun x y hxy => by
    simpa [Value.key?] using hxy
  simp only [draft, Value.text.injEq, Option.some.injEq, Value.int.injEq, Int.natCast_inj,
    List.map_map] at hname hbaud hfeatures
  obtain ⟨x, m, xs⟩ := s
  obtain ⟨y, n, ys⟩ := t
  have hxs : xs = ys := List.map_injective_iff.2 hkey hfeatures
  rw [Selection.mk.injEq]
  exact ⟨hname, hbaud, hxs⟩

/-- Accepted drafts that give the same text at the same time are the same, whatever the catalog holds.
Names of features are the same as keys; the names in selections, which are texts, are the same. -/
theorem Catalog.generate_injective {disk : Disk} {folder : PathName} {c : Catalog}
    (h : load disk folder = .ok c) (hok : c.isOk = true) :
    ∃ index, c.index = .ok index ∧
      ∀ (d e : Draft) (clock : Clock) (time : Option Clock.Time) (text : String),
        d.Accepted → e.Accepted →
        (d.generate index clock time).result = .ok text →
        (e.generate index clock time).result = .ok text →
        d.filename = e.filename ∧ d.baud = e.baud ∧
          d.features.map Value.key? = e.features.map Value.key? ∧
          ∀ s t : Selection, d = s.draft → e = t.draft → s = t := by
  have hsound := load_sound h hok
  obtain ⟨index, hindex⟩ := hsound.exists_index
  refine ⟨index, hindex, fun d e clock time text hd he hgenerate hgenerate' => ?_⟩
  rw [Draft.generate_result] at hgenerate hgenerate'
  obtain ⟨s, hs, rfl⟩ := map_ok hgenerate
  obtain ⟨t, ht, htext⟩ := map_ok hgenerate'
  obtain ⟨p, m, hp, -, hof⟩ := Draft.sketch_ok hs
  obtain ⟨q, m', hq, -, hof'⟩ := Draft.sketch_ok ht
  obtain ⟨name, n, hname, hword, hbaud⟩ := hd.parts
  obtain ⟨name', n', hname', hword', hbaud'⟩ := he.parts
  have hp' : p.Legible d.baud := hbaud ▸ hsound.legible hindex hp n
  have hq' : q.Legible e.baud := hbaud' ▸ hsound.legible hindex hq n'
  have hsetup := hof.setup_text_eq hof' hp' hq' htext.symm
  have hfeatures := hsound.features_eq hindex hp hq (hp'.registered_eq hq' hsetup)
  have hkeys : d.features.map Value.key? = e.features.map Value.key? := by
    rw [← Sound.names_of_resolve hindex hp, ← Sound.names_of_resolve hindex hq, hfeatures]
  have hnames : d.filename = e.filename := by
    rw [hname, hname', hof.filename_eq hof' hname hname' hword hword' htext.symm]
  have hbauds : d.baud = e.baud := by
    rw [hbaud, hbaud'] at hsetup ⊢
    rw [hp'.consistent.baud_eq hq'.consistent hfeatures hsetup]
  refine ⟨hnames, hbauds, hkeys, ?_⟩
  rintro x y rfl rfl
  exact Selection.eq_of_draft hnames hbauds hkeys

/-- A catalog with a path that looks like a set-up, and with an instance that is called like the one
for reports. -/
def Catalog.imitating : Disk :=
  twoFiles
    ("\x7b\"name\": \"Fan\", \"class_name\": \"Fan\", " ++
      "\"instance_name\": \"fan\", \"reporting\": true, " ++
      "\"path\": \"Fan.h>\\nvoid setup()\\n\x7b\\n  " ++
      "firmataExt.addFeature(reporting);\\n/\"\x7d").toUTF8
    ("\x7b\"name\": \"Led\", \"class_name\": \"Led\", " ++
      "\"instance_name\": \"reporting\"\x7d").toUTF8

theorem Catalog.generate_injective_imitating :
    ∃ c index a b, load imitating ⟨.root, []⟩ = .ok c ∧ c.isOk = true ∧ c.index = .ok index ∧
      (Draft.generate ⟨.text "Lamp", some (.int 57600), [.text "Fan"]⟩ index
        ⟨.moment .epoch, .utc⟩ none).result = .ok a ∧
      (Draft.generate ⟨.text "Lamp", some (.int 57600), [.text "Fan", .text "Led"]⟩ index
        ⟨.moment .epoch, .utc⟩ none).result = .ok b ∧ a ≠ b := by
  have hfiles : featureFiles imitating ⟨.root, []⟩ = .ok ["fan.json", "led.json"] :=
    featureFiles_twoFiles _ _
  obtain ⟨c, hload, hlook⟩ := exists_load_of_parts hfiles (by simp)
    (fun c => c.index.toOption.bind fun index =>
      (Draft.generate ⟨.text "Lamp", some (.int 57600), [.text "Fan"]⟩ index
        ⟨.moment .epoch, .utc⟩ none).result.toOption.bind fun _ =>
          (Draft.generate ⟨.text "Lamp", some (.int 57600), [.text "Fan", .text "Led"]⟩ index
            ⟨.moment .epoch, .utc⟩ none).result.toOption.map fun _ => c.isOk)
    (a := true) (by decide +kernel)
  simp only [Option.bind_eq_some_iff, Option.map_eq_some_iff] at hlook
  obtain ⟨index, hindex, a, ha, b, hb, hok⟩ := hlook
  have hindex := ok_of_toOption hindex
  have ha := ok_of_toOption ha
  have hb := ok_of_toOption hb
  refine ⟨c, index, a, b, hload, hok, hindex, ha, hb, ?_⟩
  rintro rfl
  obtain ⟨index', hindex', hinjective⟩ := generate_injective hload hok
  rw [hindex, Except.ok.injEq] at hindex'
  subst hindex'
  have haccepted (names : List Value) : Draft.Accepted ⟨.text "Lamp", some (.int 57600), names⟩ :=
    ⟨⟨"Lamp", rfl⟩, ⟨.int 57600, 57600, rfl, rfl⟩⟩
  obtain ⟨-, -, hnames, -⟩ := hinjective _ _ _ _ _ (haccepted _) (haccepted _) ha hb
  simp at hnames

end FirmataSketch
