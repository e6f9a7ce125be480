import FirmataSketch.Command.Invocation
import FirmataSketch.Proofs.Outcome
import FirmataSketch.Proofs.Text.Integer

/-! Settings on a command line: what the command that generates sketches makes of options that carry
their values with them, in whatever order they come. -/

namespace FirmataSketch.Command

open Outcome (bind_ok)

theorem splitEquals_attached {name : String} (h : '=' ∉ name.toList) (value : String) :
    splitEquals (name ++ "=" ++ value) = (name, some value) := by
  have hname : ∀ c ∈ name.toList, (c != '=') = true := by
    intro c hc
    rw [bne_iff_ne]
    exact fun e => h (e ▸ hc)
  have hchars : (name ++ "=" ++ value).toList = name.toList ++ '=' :: value.toList := by simp
  have hstart : (name.toList ++ '=' :: value.toList).takeWhile (· != '=') = name.toList := by
    rw [List.takeWhile_append_of_pos hname]
    simp
  have hrest : (name.toList ++ '=' :: value.toList).dropWhile (· != '=') = '=' :: value.toList := by
    rw [List.dropWhile_append_of_pos hname]
    rfl
  unfold splitEquals
  simp only [hchars, hstart, hrest, String.ofList_toList]

theorem hasPrefix_append {start s : String} (h : hasPrefix start s = true) (t : String) :
    hasPrefix start (s ++ t) = true := by
  rw [hasPrefix, List.isPrefixOf_iff_prefix] at h ⊢
  rw [String.toList_append]
  exact h.trans (List.prefix_append _ _)

section Options

variable {opts : List Opt}

/-- No option has an equals sign in its name. -/
def NoEquals (opts : List Opt) : Prop := ∀ p ∈ namedOptions opts, '=' ∉ p.1.toList

instance (opts : List Opt) : Decidable (NoEquals opts) :=
  inferInstanceAs (Decidable (∀ p ∈ namedOptions opts, '=' ∉ p.1.toList))

theorem option?_attached (hopts : NoEquals opts) (name value : String) :
    option? opts (name ++ "=" ++ value) = none := by
  rw [option?, List.lookup_eq_none_iff]
  intro p hp
  rw [bne_iff_ne]
  intro heq
  have hno := hopts p hp
  rw [← heq] at hno
  simp at hno

theorem attached_ne (name value s : String) (hs : '=' ∉ s.toList) : name ++ "=" ++ value ≠ s := by
  rintro rfl
  simp at hs

theorem readArgument_attached (hopts : NoEquals opts) {name : String} {o : Opt}
    (hstart : hasPrefix "-" name = true) (hname : '=' ∉ name.toList)
    (ho : option? opts name = some o) (value : String) :
    readArgument opts (name ++ "=" ++ value) = .ok (.option o name (some value)) := by
  have hlong : hasPrefix "-" (name ++ "=" ++ value) = true :=
    hasPrefix_append (hasPrefix_append hstart "=") value
  -- the whole argument is looked up first, and no option has such a name
  have hminus := attached_ne name value "-" (by decide)
  unfold readArgument
  simp [hlong, option?_attached hopts, hminus, splitEquals_attached hname, ho]

/-- A long name that no option has, and that is short for none, is read all the same. -/
theorem readArgument_unknown (hopts : NoEquals opts) {name : String}
    (hstart : hasPrefix "-" name = true) (hlong : isLong name = true) (hname : '=' ∉ name.toList)
    (ho : option? opts name = none)
    (hshort : (namedOptions opts).filter (fun n => hasPrefix name n.1) = []) (value : String) :
    ∃ r, readArgument opts (name ++ "=" ++ value) = .ok r := by
  have hstart' : hasPrefix "-" (name ++ "=" ++ value) = true :=
    hasPrefix_append (hasPrefix_append hstart "=") value
  have hlong' : isLong (name ++ "=" ++ value) = true :=
    hasPrefix_append (hasPrefix_append hlong "=") value
  have hminus := attached_ne name value "-" (by decide)
  have hcandidates : candidates opts (name ++ "=" ++ value) = [] := by
    rw [candidates, if_pos hlong', longCandidates, splitEquals_attached hname]
    exact List.map_eq_nil_iff.2 hshort
  unfold readArgument readArgument.search
  simp only [hstart', Bool.not_true, Bool.false_eq_true, if_false, option?_attached hopts, hminus,
    splitEquals_attached hname, ho, hcandidates]
  split
  · exact ⟨_, rfl⟩
  · exact ⟨_, rfl⟩

theorem readArguments_map {α : Type} {text : α → String} {reading : α → Reading} {xs : List α}
    (h : ∀ x ∈ xs, text x ≠ "--" ∧ readArgument opts (text x) = .ok (reading x)) :
    readArguments opts (xs.map text) = .ok ⟨xs.map fun x => (text x, reading x), []⟩ := by
  induction xs with
  | nil => rfl
  | cons x xs ih =>
    obtain ⟨hne, hx⟩ := h x List.mem_cons_self
    have hxs := ih fun y hy => h y (List.mem_cons_of_mem x hy)
    rw [List.map_cons, readArguments, if_neg hne, hx, hxs]
    rfl

end Options

theorem applyAll_cons {α : Type} {p : Parser α} {a a' : α} {o : Opt} {value : Value}
    {os : List Occurrence} (ho : o ≠ helpOption) (h : p.apply a o value = .ok a') :
    p.applyAll a ((o, value) :: os) = p.applyAll a' os := by
  rw [Parser.applyAll, if_neg ho, h]

theorem applyAll_append {α : Type} (p : Parser α) (a : α) (os os' : List Occurrence) :
    p.applyAll a (os ++ os') = (p.applyAll a os).bind fun a => p.applyAll a os' := by
  induction os generalizing a with
  | nil => rfl
  | cons x os ih =>
    obtain ⟨o, value⟩ := x
    rw [List.cons_append, Parser.applyAll, Parser.applyAll]
    split
    · rfl
    · split
      · rfl
      · exact ih _

inductive Setting where
  | stdout
  | filename (s : String)
  | baud (n : Int)
  | feature (s : String)

namespace Setting

def opt : Setting → Opt
  | .stdout => stdoutOption
  | .filename _ => filenameOption
  | .baud _ => baudOption
  | .feature _ => featureOption

def name : Setting → String
  | .stdout => "--stdout"
  | .filename _ => "--filename"
  | .baud _ => "--baud"
  | .feature _ => "--feature"

def value? : Setting → Option String
  | .stdout => none
  | .filename s => some s
  | .baud n => some (Text.decimal n)
  | .feature s => some s

def text (x : Setting) : String :=
  match x.value? with
  | none => x.name
  | some v => x.name ++ "=" ++ v

def reading (x : Setting) : Reading := .option x.opt x.name x.value?

def occurrence (x : Setting) : Occurrence :=
  (x.opt, match x.value? with
    | none => .null
    | some v => attachedValue v)

def apply (g : GenerateOptions) : Setting → GenerateOptions
  | .stdout => { g with toStdout := true }
  | .filename s => { g with filename := some (attachedValue s) }
  | .baud n => { g with baud := some (.int n) }
  | .feature s => { g with features := some (g.features.getD [] ++ [attachedValue s]) }

def stdout? : Setting → Option Unit
  | .stdout => some ()
  | _ => none

def filename? : Setting → Option String
  | .filename s => some s
  | _ => none

def baud? : Setting → Option Int
  | .baud n => some n
  | _ => none

def feature? : Setting → Option String
  | .feature s => some s
  | _ => none

theorem name_spec (x : Setting) :
    hasPrefix "-" x.name = true ∧ isLong x.name = true ∧ '=' ∉ x.name.toList := by
  cases x <;> simp only [name] <;> decide

theorem text_ne (x : Setting) : x.text ≠ "--" := by
  cases x with
  | stdout => decide
  | filename s => exact attached_ne _ _ _ (by decide)
  | baud n => exact attached_ne _ _ _ (by decide)
  | feature s => exact attached_ne _ _ _ (by decide)

theorem readArgument_text (x : Setting) :
    readArgument Parser.generate.options x.text = .ok x.reading := by
  have hopts : NoEquals Parser.generate.options := by decide
  have ho : option? Parser.generate.options x.name = some x.opt := by cases x <;> rfl
  obtain ⟨hstart, -, hname⟩ := x.name_spec
  cases x with
  | stdout => rfl
  | filename s => exact readArgument_attached hopts hstart hname ho s
  | baud n => exact readArgument_attached hopts hstart hname ho _
  | feature s => exact readArgument_attached hopts hstart hname ho s

theorem readArgument_main (x : Setting) : ∃ r, readArgument Parser.main.options x.text = .ok r := by
  have hopts : NoEquals Parser.main.options := by decide
  have ho : option? Parser.main.options x.name = none := by cases x <;> rfl
  have hshort : (namedOptions Parser.main.options).filter (fun n => hasPrefix x.name n.1) = [] := by
    cases x <;> simp only [name] <;> decide
  obtain ⟨hstart, hlong, hname⟩ := x.name_spec
  cases x with
  | stdout => exact ⟨_, rfl⟩
  | filename s => exact readArgument_unknown hopts hstart hlong hname ho hshort s
  | baud n => exact readArgument_unknown hopts hstart hlong hname ho hshort _
  | feature s => exact readArgument_unknown hopts hstart hlong hname ho hshort s

theorem readGroup_reading (opts : List Opt) (x : Setting) :
    readGroup opts x.opt x.name x.value? = .ok { last := x.opt, attached := x.value? } := by
  cases x <;> rfl

theorem scan_append (opts : List Opt) (xs : List Setting) (rest : List (String × Reading)) :
    scan opts false [] (xs.map (fun x => (x.text, x.reading)) ++ rest) =
      (scan opts false [] rest).after (xs.map occurrence) [] := by
  induction xs with
  | nil => rfl
  | cons x xs ih =>
    rw [List.map_cons, List.cons_append, reading, scan, readGroup_reading]
    cases x <;> simp [ih, Scan.after, value?, opt, occurrence, stdoutOption]

theorem scan_readings (opts : List Opt) (xs : List Setting) :
    scan opts false [] (xs.map fun x => (x.text, x.reading)) =
      { occurrences := xs.map occurrence } := by
  have hscan := scan_append opts xs []
  rw [List.append_nil] at hscan
  rw [hscan]
  simp [scan, Scan.after]

theorem attachedValue_decimal (n : Int) : attachedValue (Text.decimal n) = .text (Text.decimal n) := by
  refine if_neg fun heq => ?_
  have hminus : '-' ∉ Nat.toDigits 10 n.natAbs := fun hmem =>
    absurd (Text.mem_digits_of_mem_toDigits hmem) (by decide)
  have htext : (Text.decimal n).toList = ['-', '-'] := congrArg String.toList heq
  rcases Text.toList_decimal_cases n with h | h
  · exact hminus (by simp [← h, htext])
  · rw [htext, List.cons.injEq] at h
    exact hminus (by simp [← h.2])

theorem readInteger_decimal (n : Int) : readInteger baudOption (attachedValue (Text.decimal n)) =
    if n.natAbs < 10 ^ Text.maxDigits then .ok (.int n)
    else .error (.badInteger baudOption (Text.decimal n)) := by
  rw [attachedValue_decimal, readInteger, Text.integer?_decimal]
  by_cases h : n.natAbs < 10 ^ Text.maxDigits
  · rw [if_pos h, if_pos h]
  · rw [if_neg h, if_neg h]

/-- The numbers among the settings can be read. -/
def Readable (xs : List Setting) : Prop := ∀ n, .baud n ∈ xs → n.natAbs < 10 ^ Text.maxDigits

theorem readable_of_single {xs : List Setting} {baud : Int} (h : xs.filterMap baud? = [baud])
    (hb : baud.natAbs < 10 ^ Text.maxDigits) : Readable xs := by
  intro n hn
  have hmem : n ∈ xs.filterMap baud? := List.mem_filterMap.2 ⟨.baud n, hn, rfl⟩
  rw [h, List.mem_singleton] at hmem
  exact hmem ▸ hb

theorem readable_append {xs ys : List Setting} :
    Readable (xs ++ ys) ↔ Readable xs ∧ Readable ys := by
  simp only [Readable, List.mem_append, or_imp, forall_and]

theorem readable_cons {x : Setting} {xs : List Setting} :
    Readable (x :: xs) ↔ Readable [x] ∧ Readable xs := @readable_append [x] xs

theorem occurrence_ne_help (x : Setting) : x.occurrence.1 ≠ helpOption := by
  cases x <;> exact of_decide_eq_true rfl

theorem apply_baud (g : GenerateOptions) (n : Int) :
    Parser.generate.apply g (occurrence (.baud n)).1 (occurrence (.baud n)).2 =
      if n.natAbs < 10 ^ Text.maxDigits then .ok (apply g (.baud n))
      else .error (.badInteger baudOption (Text.decimal n)) := by
  have hset : Parser.generate.apply g (occurrence (.baud n)).1 (occurrence (.baud n)).2 =
      (readInteger baudOption (attachedValue (Text.decimal n))).map fun n =>
        { g with baud := some n } := rfl
  rw [hset, readInteger_decimal]
  split <;> rfl

theorem apply_occurrence {x : Setting} (h : Readable [x]) (g : GenerateOptions) :
    Parser.generate.apply g x.occurrence.1 x.occurrence.2 = .ok (apply g x) := by
  cases x with
  | stdout => rfl
  | filename s => rfl
  | baud n => rw [apply_baud, if_pos (h n List.mem_cons_self)]
  | feature s => rfl

theorem applyAll_occurrences {xs : List Setting} (h : Readable xs) (g : GenerateOptions) :
    Parser.generate.applyAll g (xs.map occurrence) = .ok (xs.foldl apply g) := by
  induction xs generalizing g with
  | nil => rfl
  | cons x xs ih =>
    obtain ⟨hx, hxs⟩ := readable_cons.1 h
    rw [List.map_cons, List.foldl_cons, ← ih hxs]
    exact applyAll_cons x.occurrence_ne_help (apply_occurrence hx g)

/-- The first number that cannot be read ends the reading. -/
theorem applyAll_unreadable {xs : List Setting} (h : ¬ Readable xs) (g : GenerateOptions) :
    ∃ n, .baud n ∈ xs ∧ Parser.generate.applyAll g (xs.map occurrence) =
      .error (.usage .generate (.badInteger baudOption (Text.decimal n))) := by
  induction xs generalizing g with
  | nil => exact absurd (fun _ hn => nomatch hn) h
  | cons x xs ih =>
    by_cases hx : Readable [x]
    · have hxs : ¬ Readable xs := fun hxs => h (readable_cons.2 ⟨hx, hxs⟩)
      obtain ⟨n, hn, hread⟩ := ih hxs (apply g x)
      refine ⟨n, List.mem_cons_of_mem x hn, ?_⟩
      rw [List.map_cons, ← hread]
      exact applyAll_cons x.occurrence_ne_help (apply_occurrence hx g)
    · obtain ⟨n, hn, hlong⟩ : ∃ n, .baud n ∈ [x] ∧ ¬ n.natAbs < 10 ^ Text.maxDigits := by
        simpa only [Readable, not_forall, exists_prop] using hx
      obtain rfl := List.mem_singleton.1 hn
      refine ⟨n, List.mem_cons_self, ?_⟩
      rw [List.map_cons, Parser.applyAll, if_neg (occurrence_ne_help _), apply_baud, if_neg hlong]
      rfl

/-- A part of the options is settled by the settings that concern it. -/
theorem foldl_part {α β : Type} (part : GenerateOptions → β) (concern : Setting → Option α)
    (update : β → α → β)
    (h : ∀ g x, part (apply g x) = (concern x).elim (part g) (update (part g)))
    (xs : List Setting) (g : GenerateOptions) :
    part (xs.foldl apply g) = (xs.filterMap concern).foldl update (part g) := by
  induction xs generalizing g with
  | nil => rfl
  | cons x xs ih =>
    rw [List.foldl_cons, ih, h, List.filterMap_cons]
    cases concern x <;> rfl

theorem foldl_features (names : List String) (vs : List Value) :
    names.foldl (fun b s => some (b.getD [] ++ [attachedValue s])) (some vs) =
      some (vs ++ names.map attachedValue) := by
  induction names generalizing vs with
  | nil => rw [List.foldl_nil, List.map_nil, List.append_nil]
  | cons s names ih =>
    rw [List.foldl_cons, ih, List.map_cons]
    simp

end Setting

/-- The settings ask for the features in order, for one file name and for one baud, and for the
sketch on the output. -/
structure AsksFor (xs : List Setting) (features : List String) (filename : String) (baud : Int) :
    Prop where
  features_eq : xs.filterMap Setting.feature? = features
  filename_eq : xs.filterMap Setting.filename? = [filename]
  baud_eq : xs.filterMap Setting.baud? = [baud]
  stdout_mem : .stdout ∈ xs

namespace AsksFor

variable {xs : List Setting} {features : List String} {filename : String} {baud : Int}

theorem readable (h : AsksFor xs features filename baud) (hb : baud.natAbs < 10 ^ Text.maxDigits) :
    Setting.Readable xs := Setting.readable_of_single h.baud_eq hb

theorem options (h : AsksFor xs features filename baud) (hne : features ≠ []) :
    xs.foldl Setting.apply {} =
      { features := some (features.map attachedValue), filename := some (attachedValue filename)
        baud := some (.int baud), toStdout := true } := by
  -- each part depends on its own settings only, wherever the others stand
  have hfeatures := Setting.foldl_part GenerateOptions.features Setting.feature?
    (fun b s => some (b.getD [] ++ [attachedValue s])) (by intro g x; cases x <;> rfl) xs {}
  have hfilename := Setting.foldl_part GenerateOptions.filename Setting.filename?
    (fun _ s => some (attachedValue s)) (by intro g x; cases x <;> rfl) xs {}
  have hbaud := Setting.foldl_part GenerateOptions.baud Setting.baud?
    (fun _ n => some (.int n)) (by intro g x; cases x <;> rfl) xs {}
  have hstdout := Setting.foldl_part GenerateOptions.toStdout Setting.stdout?
    (fun _ _ => true) (by intro g x; cases x <;> rfl) xs {}
  have hrest := Setting.foldl_part (fun g => (g.selection, g.catalog, g.out))
    (fun _ => (none : Option Unit)) (fun b _ => b) (by intro g x; cases x <;> rfl) xs {}
  rw [h.features_eq] at hfeatures
  rw [h.filename_eq] at hfilename
  rw [h.baud_eq] at hbaud
  generalize xs.foldl Setting.apply {} = g at *
  obtain ⟨selection, features', filename', baud', catalog, out, toStdout⟩ := g
  have hstdout' : toStdout = true := by
    have hmem : () ∈ xs.filterMap Setting.stdout? := List.mem_filterMap.2 ⟨_, h.stdout_mem, rfl⟩
    cases hunits : xs.filterMap Setting.stdout? with
    | nil => simp [hunits] at hmem
    | cons u us =>
      rw [hunits, List.foldl_cons, List.foldl_fixed'] at hstdout
      · exact hstdout
      · exact fun _ => rfl
  have hfeatures' : features' = some (features.map attachedValue) := by
    cases features with
    | nil => exact absurd rfl hne
    | cons s names => exact hfeatures.trans (Setting.foldl_features names [attachedValue s])
  have hrest' : (selection, catalog, out) = (none, none, none) := by
    rw [List.filterMap_none] at hrest
    exact hrest
  obtain ⟨rfl, rfl, rfl⟩ : selection = none ∧ catalog = none ∧ out = none := by
    simpa using hrest'
  subst hstdout' hfeatures'
  have hfilename' : filename' = some (attachedValue filename) := hfilename
  have hbaud' : baud' = some (.int baud) := hbaud
  rw [hfilename', hbaud']

end AsksFor

end FirmataSketch.Command
