import FirmataSketch.Proofs.Command.Setting

/-! Invocations that generate sketches: which options the program reads from settings in any order,
and from the path of a selection file. -/

namespace FirmataSketch.Command

theorem readArguments_ok {opts : List Opt} {args : List String}
    (h : ∀ a ∈ args, a ≠ "--" ∧ ∃ r, readArgument opts a = .ok r) :
    ∃ read, readArguments opts args = .ok ⟨read, []⟩ ∧ read.map Prod.fst = args := by
  induction args with
  | nil => exact ⟨[], rfl, rfl⟩
  | cons a args ih =>
    obtain ⟨hne, r, hr⟩ := h a List.mem_cons_self
    obtain ⟨read, hread, hargs⟩ := ih fun b hb => h b (List.mem_cons_of_mem a hb)
    refine ⟨(a, r) :: read, ?_, ?_⟩
    · rw [readArguments, if_neg hne, hr, hread]
      rfl
    · rw [List.map_cons, hargs]

theorem run_of_scan {α : Type} {p : Parser α} {commands : Bool} {start : α} {args : List String}
    {as : Arguments} {s : Scan} (hread : readArguments p.options args = .ok as)
    (hscan : scan p.options commands as.rest as.read = s) (hmisstep : s.misstep = none) :
    p.run commands start args = (p.applyAll start s.occurrences).map fun a => (a, s) := by
  unfold Parser.run
  simp only [hread, hscan, hmisstep, Except.mapError, bind, Except.bind]
  cases p.applyAll start s.occurrences <;> rfl

theorem run_ok {α : Type} {p : Parser α} {commands : Bool} {start a : α} {args : List String}
    {as : Arguments} {s : Scan} (hread : readArguments p.options args = .ok as)
    (hscan : scan p.options commands as.rest as.read = s)
    (happly : p.applyAll start s.occurrences = .ok a) (hmisstep : s.misstep = none) :
    p.run commands start args = .ok (a, s) := by
  rw [run_of_scan hread hscan hmisstep, happly]
  rfl

/-- The program leaves all arguments after its command to the command. -/
theorem main_run {args : List String}
    (h : ∀ a ∈ args, a ≠ "--" ∧ ∃ r, readArgument Parser.main.options a = .ok r) :
    Parser.main.run true false ("generate" :: args) =
      .ok (false, { command := "generate" :: args }) := by
  obtain ⟨read, hread, hargs⟩ := readArguments_ok h
  have hfirst : readArgument Parser.main.options "generate" = .ok .plain := rfl
  have hall : readArguments Parser.main.options ("generate" :: args) =
      .ok ⟨("generate", .plain) :: read, []⟩ := by
    rw [readArguments, if_neg (by decide), hfirst, hread]
    rfl
  have hscan : scan Parser.main.options true [] (("generate", .plain) :: read) =
      { command := "generate" :: args } := by
    rw [scan, if_pos rfl, hargs, List.append_nil]
  exact run_ok hall hscan rfl rfl

theorem ofArguments_generate {args : List String} {o : GenerateOptions} {s : Scan}
    (hmain : ∀ a ∈ args, a ≠ "--" ∧ ∃ r, readArgument Parser.main.options a = .ok r)
    (hrun : Parser.generate.run false {} args = .ok (o, s)) (hs : s.extras = []) :
    Invocation.ofArguments ("generate" :: args) = .ok ⟨false, .generate o⟩ := by
  have hjob : Job.ofArguments "generate" args = .ok (.generate o, s.extras) := by
    unfold Job.ofArguments
    rw [hrun]
    rfl
  unfold Invocation.ofArguments
  rw [main_run hmain]
  simp only [bind, Except.bind, hjob, hs]
  rfl

theorem ofArguments_generate_error {args : List String} {h : Halt}
    (hmain : ∀ a ∈ args, a ≠ "--" ∧ ∃ r, readArgument Parser.main.options a = .ok r)
    (hrun : Parser.generate.run false {} args = .error h) :
    Invocation.ofArguments ("generate" :: args) = .error h := by
  have hjob : Job.ofArguments "generate" args = .error h := by
    unfold Job.ofArguments
    rw [hrun]
    rfl
  unfold Invocation.ofArguments
  rw [main_run hmain]
  simp only [bind, Except.bind, hjob]

theorem readArgument_plain {opts : List Opt} {path : String} (h : hasPrefix "-" path = false) :
    readArgument opts path = .ok .plain := by
  unfold readArgument
  rw [h]
  rfl

theorem generate_run_settings {xs : List Setting} (h : Setting.Readable xs) :
    Parser.generate.run false {} (xs.map Setting.text) =
      .ok (xs.foldl Setting.apply {}, { occurrences := xs.map Setting.occurrence }) := by
  have hread : readArguments Parser.generate.options (xs.map Setting.text) =
      .ok ⟨xs.map fun x => (x.text, x.reading), []⟩ :=
    readArguments_map fun x _ => ⟨x.text_ne, x.readArgument_text⟩
  exact run_ok hread (Setting.scan_readings _ xs) (Setting.applyAll_occurrences h {}) rfl

theorem generate_run_file {path : String} (h : hasPrefix "-" path = false) (hne : path ≠ "") :
    Parser.generate.run false {} ["--stdout", "--selection", path] =
      .ok ({ selection := some path, toStdout := true },
        { occurrences := [(stdoutOption, .null), (selectionOption, .text path)] }) := by
  have hdashes : path ≠ "--" := by
    rintro rfl
    exact absurd h (by decide)
  have hstdout : readArgument Parser.generate.options "--stdout" =
      .ok (.option stdoutOption "--stdout" none) := rfl
  have hselection : readArgument Parser.generate.options "--selection" =
      .ok (.option selectionOption "--selection" none) := rfl
  have hread : readArguments Parser.generate.options ["--stdout", "--selection", path] =
      .ok ⟨[("--stdout", .option stdoutOption "--stdout" none),
        ("--selection", .option selectionOption "--selection" none), (path, .plain)], []⟩ := by
    simp only [readArguments, hstdout, hselection, readArgument_plain h, if_neg hdashes]
    rfl
  have hpath : pathOf (.text path) = some path := if_neg hne
  have hset : Parser.generate.apply { toStdout := true } selectionOption (.text path) =
      .ok { selection := some path, toStdout := true } := by
    rw [← hpath]
    rfl
  have happly : Parser.generate.applyAll {} [(stdoutOption, .null), (selectionOption, .text path)] =
      .ok { selection := some path, toStdout := true } := by
    rw [applyAll_cons (by decide) rfl]
    exact applyAll_cons (by decide) hset
  exact run_ok hread rfl happly rfl

end FirmataSketch.Command
