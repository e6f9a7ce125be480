import FirmataSketch.Proofs.Command.Invocation
import FirmataSketch.Proofs.Command.Steps

/-! Command lines that store a sketch, and those that print the same sketch instead. -/

namespace FirmataSketch.Command

open Outcome (bind_ok map_ok mapError_ok)

theorem readArguments_cons_ok {opts : List Opt} {a : String} {args : List String} {as : Arguments}
    (hne : a ≠ "--") (h : readArguments opts (a :: args) = .ok as) :
    ∃ r as', readArgument opts a = .ok r ∧ readArguments opts args = .ok as' ∧
      as = ⟨(a, r) :: as'.read, as'.rest⟩ := by
  rw [readArguments, if_neg hne] at h
  obtain ⟨r, hr, h⟩ := bind_ok h
  obtain ⟨as', has, h⟩ := bind_ok h
  exact ⟨r, as', hr, has, (Except.ok.inj h).symm⟩

theorem readArguments_cons_of_ok {opts : List Opt} {a : String} {r : Reading} {args : List String}
    {as : Arguments} (hne : a ≠ "--") (hr : readArgument opts a = .ok r)
    (h : readArguments opts args = .ok as) :
    readArguments opts (a :: args) = .ok ⟨(a, r) :: as.read, as.rest⟩ := by
  rw [readArguments, if_neg hne, hr, h]
  rfl

section Flags

/-- None of the options takes a value. -/
def Flags (opts : List Opt) : Prop := ∀ p ∈ namedOptions opts, p.2.takesValue = false

instance (opts : List Opt) : Decidable (Flags opts) :=
  inferInstanceAs (Decidable (∀ p ∈ namedOptions opts, p.2.takesValue = false))

variable {opts : List Opt}

theorem Flags.of_option? (hopts : Flags opts) {name : String} {o : Opt}
    (h : option? opts name = some o) : o.takesValue = false := by
  obtain ⟨before, after, hsplit, -⟩ := List.lookup_eq_some_iff.1 h
  exact hopts (name, o) (by simp [hsplit])

theorem Flags.of_candidates (hopts : Flags opts) {argument : String}
    {c : Opt × String × Option String} (h : c ∈ candidates opts argument) :
    c.1.takesValue = false := by
  unfold candidates at h
  split at h
  · unfold longCandidates at h
    obtain ⟨n, hn, rfl⟩ := List.mem_map.1 h
    exact hopts n (List.mem_filter.1 hn).1
  · unfold shortCandidates at h
    obtain ⟨n, hn, hc⟩ := List.mem_filterMap.1 h
    split at hc
    · obtain rfl := Option.some.inj hc
      exact hopts n hn
    · split at hc
      · obtain rfl := Option.some.inj hc
        exact hopts n hn
      · cases hc

theorem Flags.of_search (hopts : Flags opts) {argument name : String} {o : Opt}
    {attached : Option String}
    (h : readArgument.search opts argument = .ok (.option o name attached)) :
    o.takesValue = false := by
  unfold readArgument.search at h
  split at h
  next hcandidates =>
    cases h
    exact hopts.of_candidates (by rw [hcandidates]; exact List.mem_cons_self)
  next =>
    split at h <;> cases h
  next => cases h

theorem Flags.of_readArgument (hopts : Flags opts) {argument name : String} {o : Opt}
    {attached : Option String} (h : readArgument opts argument = .ok (.option o name attached)) :
    o.takesValue = false := by
  unfold readArgument at h
  split at h
  · cases h
  · split at h
    next hoption =>
      cases h
      exact hopts.of_option? hoption
    next =>
      split at h
      · cases h
      · split at h
        · split at h
          next hoption =>
            cases h
            exact hopts.of_option? hoption
          next => exact hopts.of_search h
        · exact hopts.of_search h

theorem Flags.readJoined_ok (hopts : Flags opts) {o : Opt} (ho : o.takesValue = false)
    {cs : List Char} {g : Group} (h : readJoined opts o cs = .ok g) :
    g.last.takesValue = false ∧ g.attached = none := by
  induction cs generalizing o g with
  | nil =>
    cases h
    exact ⟨ho, rfl⟩
  | cons c cs ih =>
    rw [readJoined, ho, if_neg Bool.false_ne_true] at h
    split at h
    next => cases h
    next next hnext =>
      obtain ⟨g', hg, rfl⟩ := map_ok h
      have hg' := ih (hopts.of_option? hnext) hg
      exact hg'

theorem Flags.readGroup_ok (hopts : Flags opts) {o : Opt} (ho : o.takesValue = false) {name : String}
    {attached : Option String} {g : Group} (h : readGroup opts o name attached = .ok g) :
    g.last.takesValue = false ∧ g.attached = none := by
  cases attached with
  | none =>
    cases h
    exact ⟨ho, rfl⟩
  | some text =>
    rw [readGroup, ho, if_neg Bool.false_ne_true] at h
    split at h
    · cases h
    · exact hopts.readJoined_ok ho h

/-- What stands before a command adds to what is found, whatever comes after. -/
theorem Flags.scan_option (hopts : Flags opts) {a : String} {o : Opt} (ho : o.takesValue = false)
    {name : String} {attached : Option String} {rest : List String}
    {as : List (String × Reading)}
    (h : (scan opts true rest ((a, .option o name attached) :: as)).command ≠ []) :
    ∃ os, ∀ rest' as', scan opts true rest' ((a, .option o name attached) :: as') =
      (scan opts true rest' as').after os [] := by
  cases hgroup : readGroup opts o name attached with
  | error m =>
    rw [scan, hgroup] at h
    exact absurd rfl h
  | ok g =>
    obtain ⟨hlast, hattached⟩ := hopts.readGroup_ok ho hgroup
    refine ⟨(g.before.map fun o => (o, .null)) ++ [(g.last, .null)], fun rest' as' => ?_⟩
    rw [scan, hgroup]
    simp only [hlast, hattached]

end Flags

/-- The command line with the wish to print the sketch after its command. -/
def withStdout : List String → List String
  | [] => []
  | a :: args => if hasPrefix "-" a then a :: withStdout args else a :: "--stdout" :: args

theorem scan_withStdout {opts : List Opt} (hopts : Flags opts)
    (hstdout : readArgument opts "--stdout" = .ok .unknown) {args : List String} {as : Arguments}
    (hread : readArguments opts args = .ok as) {command : String} {rest : List String}
    (hcommand : (scan opts true as.rest as.read).command = command :: rest)
    (hplain : hasPrefix "-" command = false) :
    ∃ as', readArguments opts (withStdout args) = .ok as' ∧
      scan opts true as'.rest as'.read =
        { scan opts true as.rest as.read with command := command :: "--stdout" :: rest } := by
  induction args generalizing as with
  | nil =>
    obtain rfl := Except.ok.inj hread
    cases hcommand
  | cons a args ih =>
    by_cases hne : a = "--"
    · -- what follows two minus signs is no command
      rw [readArguments, if_pos hne] at hread
      obtain rfl := Except.ok.inj hread
      rw [scan] at hcommand
      split at hcommand
      · cases hcommand
        subst hne
        cases hplain
      · cases hcommand
    · obtain ⟨r, as', hr, has, rfl⟩ := readArguments_cons_ok hne hread
      by_cases hminus : hasPrefix "-" a = true
      · rw [withStdout, if_pos hminus]
        cases r with
        | plain =>
          rw [scan, if_pos rfl] at hcommand
          cases hcommand
          rw [hminus] at hplain
          cases hplain
        | unknown =>
          obtain ⟨as'', has'', hscan⟩ := ih has hcommand
          refine ⟨_, readArguments_cons_of_ok hne hr has'', ?_⟩
          rw [scan, hscan, scan]
          rfl
        | option o name attached =>
          have ho := hopts.of_readArgument hr
          obtain ⟨os, hos⟩ := hopts.scan_option ho (by rw [hcommand]; exact List.cons_ne_nil _ _)
          rw [hos] at hcommand
          obtain ⟨as'', has'', hscan⟩ := ih has hcommand
          refine ⟨_, readArguments_cons_of_ok hne hr has'', ?_⟩
          rw [hos, hos, hscan]
          rfl
      · have hr' : r = .plain := by
          rw [readArgument_plain (Bool.eq_false_iff.2 hminus), Except.ok.injEq] at hr
          exact hr.symm
        subst hr'
        rw [scan, if_pos rfl] at hcommand
        cases hcommand
        rw [withStdout, if_neg hminus]
        refine ⟨_, readArguments_cons_of_ok hne hr (readArguments_cons_of_ok (by decide) hstdout has),
          ?_⟩
        rw [scan, if_pos rfl, scan, if_pos rfl, List.map_cons, List.cons_append]
        rfl

theorem run_ok_parts {α : Type} {p : Parser α} {commands : Bool} {start a : α} {args : List String}
    {s : Scan} (h : p.run commands start args = .ok (a, s)) :
    ∃ as, readArguments p.options args = .ok as ∧ s = scan p.options commands as.rest as.read ∧
      p.applyAll start s.occurrences = .ok a ∧ s.misstep = none := by
  obtain ⟨as, has, h⟩ := bind_ok h
  obtain ⟨a', happly, h⟩ := bind_ok h
  split at h
  next => cases h
  next hmisstep =>
    cases h
    exact ⟨as, mapError_ok has, rfl, happly, hmisstep⟩

/-- The wish to print the sketch does not meddle with the other options. -/
theorem set_printing (g : GenerateOptions) (o : Opt) (value : Value) :
    GenerateOptions.set { g with toStdout := true } o value =
      (g.set o value).map fun g => { g with toStdout := true } := by
  unfold GenerateOptions.set
  split_ifs <;> try rfl
  cases readInteger o value <;> rfl

theorem applyAll_printing {g g' : GenerateOptions} {os : List Occurrence}
    (h : Parser.generate.applyAll g os = .ok g') :
    Parser.generate.applyAll { g with toStdout := true } os = .ok { g' with toStdout := true } := by
  induction os generalizing g with
  | nil =>
    cases h
    rfl
  | cons occurrence os ih =>
    obtain ⟨o, value⟩ := occurrence
    rw [Parser.applyAll] at h ⊢
    split at h
    · cases h
    next hhelp =>
      rw [if_neg hhelp]
      have hset : Parser.generate.apply { g with toStdout := true } o value =
          (Parser.generate.apply g o value).map fun g => { g with toStdout := true } :=
        set_printing g o value
      split at h
      next => cases h
      next g₁ hg =>
        rw [hset, hg]
        exact ih h

theorem generate_run_printing {args : List String} {o : GenerateOptions} {s : Scan}
    (h : Parser.generate.run false {} args = .ok (o, s)) :
    Parser.generate.run false {} ("--stdout" :: args) =
      .ok ({ o with toStdout := true }, s.after [(stdoutOption, .null)] []) := by
  obtain ⟨as, has, rfl, happly, hmisstep⟩ := run_ok_parts h
  have hstdout : readArgument Parser.generate.options "--stdout" =
      .ok (.option stdoutOption "--stdout" none) := rfl
  refine run_ok (readArguments_cons_of_ok (by decide) hstdout has) rfl ?_ hmisstep
  have hfirst : Parser.generate.apply {} stdoutOption .null = .ok { toStdout := true } := rfl
  exact (applyAll_cons (by decide) hfirst).trans (applyAll_printing happly)

theorem ofArguments_ok {args : List String} {i : Invocation}
    (h : Invocation.ofArguments args = .ok i) :
    ∃ s command rest extras, Parser.main.run true false args = .ok (i.verbose, s) ∧
      s.command = command :: rest ∧ Job.ofArguments command rest = .ok (i.job, extras) ∧
      s.extras ++ extras = [] := by
  obtain ⟨⟨verbose, s⟩, hmain, h⟩ := bind_ok h
  dsimp only at h
  split at h
  next => cases h
  next command rest hcommand =>
    obtain ⟨⟨job, extras⟩, hjob, h⟩ := bind_ok h
    dsimp only at h
    split at h
    next hempty =>
      cases h
      exact ⟨s, command, rest, extras, hmain, hcommand, hjob, List.isEmpty_iff.1 hempty⟩
    next => cases h

theorem jobOfArguments_generate {command : String} {args extras : List String} {o : GenerateOptions}
    (h : Job.ofArguments command args = .ok (.generate o, extras)) :
    command = "generate" ∧ ∃ s, Parser.generate.run false {} args = .ok (o, s) ∧ s.extras = extras := by
  unfold Job.ofArguments at h
  split at h
  · obtain ⟨⟨o', s⟩, hrun, h⟩ := bind_ok h
    cases h
    exact ⟨rfl, s, hrun, rfl⟩
  · obtain ⟨p, -, h⟩ := bind_ok h
    cases h
  · obtain ⟨p, -, h⟩ := bind_ok h
    cases h
  · cases h

theorem ofArguments_withStdout {args : List String} {verbose : Bool} {o : GenerateOptions}
    (h : Invocation.ofArguments args = .ok ⟨verbose, .generate o⟩) :
    Invocation.ofArguments (withStdout args) =
      .ok ⟨verbose, .generate { o with toStdout := true }⟩ := by
  obtain ⟨s, command, rest, extras, hmain, hcommand, hjob, hextras⟩ := ofArguments_ok h
  obtain ⟨rfl, t, hrun, rfl⟩ := jobOfArguments_generate hjob
  obtain ⟨as, has, rfl, happly, hmisstep⟩ := run_ok_parts hmain
  have hstdout : readArgument Parser.main.options "--stdout" = .ok .unknown := rfl
  obtain ⟨as', has', hscan⟩ := scan_withStdout (by decide) hstdout has hcommand (by decide)
  have hmain' := run_ok has' hscan happly hmisstep
  have hjob' : Job.ofArguments "generate" ("--stdout" :: rest) =
      .ok (.generate { o with toStdout := true }, t.extras) := by
    unfold Job.ofArguments
    rw [generate_run_printing hrun]
    rfl
  unfold Invocation.ofArguments
  rw [hmain']
  simp only [bind, Except.bind, hjob', hextras]
  rfl

end FirmataSketch.Command
