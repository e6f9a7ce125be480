import FirmataSketch.Proofs.Sketch.Uses

/-! Runs of a session, in which plans are used in any order. Each plan goes by its own uses, and what it
has included is seen in no block but those of its own include passes. -/

namespace FirmataSketch

open Sketch

/-- A use of the plan with the given name. -/
structure Step where
  name : String
  use : Use

namespace Step

/-- The uses that are made of the plan with the given name. -/
def uses (name : String) (steps : List Step) : List Use :=
  (steps.filter fun t => t.name == name).map Step.use

/-- The step adds nothing to what the plan with the given name has included. -/
def spares (name : String) (t : Step) : Bool := !(t.name == name && t.use.adds)

theorem uses_cons (name : String) (t : Step) (steps : List Step) :
    uses name (t :: steps) = (if t.name = name then [t.use] else []) ++ uses name steps := by
  rw [uses, List.filter_cons]
  by_cases h : t.name = name <;> simp [h, uses]

theorem uses_append (name : String) (steps later : List Step) :
    uses name (steps ++ later) = uses name steps ++ uses name later := by
  rw [uses, List.filter_append, List.map_append]
  rfl

theorem mem_uses {name : String} {u : Use} {steps : List Step} :
    u ∈ uses name steps ↔ ⟨name, u⟩ ∈ steps := by
  rw [uses, List.mem_map]
  constructor
  · rintro ⟨t, ht, rfl⟩
    rw [List.mem_filter, beq_iff_eq] at ht
    exact ht.2 ▸ ht.1
  · exact fun h => ⟨⟨name, u⟩, List.mem_filter.2 ⟨h, beq_self_eq_true name⟩, rfl⟩

end Step

namespace Session

variable {s s' : Session} {n m : String} {p : Plan} {t : Step} {steps : List Step}

/-- A use of a plan that is not there changes nothing. -/
def next (s : Session) (t : Step) : Session := ((s.use t.name t.use).map Prod.snd).getD s

def answer (s : Session) (t : Step) : Option (Except Misuse Block) :=
  (s.use t.name t.use).map Prod.fst

def after (s : Session) (steps : List Step) : Session := steps.foldl next s

/-- The steps, each with its answer. -/
def run (s : Session) : List Step → List (Step × Option (Except Misuse Block))
  | [] => []
  | t :: steps => (t, s.answer t) :: (s.next t).run steps

/-- What the include passes over the plan with the given name give. -/
def passes (s : Session) (name : String) (steps : List Step) : List (Except Misuse Block) :=
  (s.run steps).filterMap fun a => if a.1.name = name ∧ a.1.use.isPass = true then a.2 else none

theorem plan?_keep_self (s : Session) (n : String) (p : Plan) : (s.keep n p).plan? n = some p :=
  List.lookup_cons_self

theorem lookup_filter_of_ne (plans : List (String × Plan)) (h : m ≠ n) :
    (plans.filter fun e => e.1 != n).lookup m = plans.lookup m := by
  induction plans with
  | nil => rfl
  | cons e plans ih =>
    by_cases he : e.1 = n
    · have hm : (m == e.1) = false := beq_false_of_ne (he ▸ h)
      rw [List.filter_cons_of_neg (by simp [he]), ih, List.lookup_cons, hm]
    · rw [List.filter_cons_of_pos (by simp [he]), List.lookup_cons, List.lookup_cons, ih]

theorem plan?_keep_of_ne (s : Session) (p : Plan) (h : m ≠ n) :
    (s.keep n p).plan? m = s.plan? m := by
  rw [keep, plan?, List.lookup_cons, beq_false_of_ne h]
  exact lookup_filter_of_ne s.plans h

theorem answer_eq (s : Session) (t : Step) :
    s.answer t = (s.plan? t.name).map fun p => (p.use t.use).1 := by
  rw [answer, use, Option.map_map]
  rfl

theorem plan?_next_of_ne (s : Session) (h : t.name ≠ n) : (s.next t).plan? n = s.plan? n := by
  rw [next, use, Option.map_map]
  cases s.plan? t.name with
  | none => rfl
  | some p => exact plan?_keep_of_ne s _ h.symm

theorem plan?_next_self (s : Session) (t : Step) :
    (s.next t).plan? t.name = (s.plan? t.name).map fun p => (p.use t.use).2 := by
  rw [next, use, Option.map_map]
  cases hp : s.plan? t.name with
  | none => exact hp
  | some p => exact plan?_keep_self s _ _

/-- A plan in a session goes by its own uses. -/
theorem plan?_after (hp : s.plan? n = some p) (steps : List Step) :
    (s.after steps).plan? n = some (p.after (Step.uses n steps)) := by
  induction steps generalizing s p with
  | nil => exact hp
  | cons t steps ih =>
    rw [Step.uses_cons]
    by_cases ht : t.name = n
    · subst ht
      rw [if_pos rfl]
      exact ih (by rw [plan?_next_self, hp]; rfl)
    · rw [if_neg ht]
      exact ih (by rw [plan?_next_of_ne s ht, hp])

theorem after_append (s : Session) (steps later : List Step) :
    s.after (steps ++ later) = (s.after steps).after later := List.foldl_append

theorem passes_eq (hp : s.plan? n = some p) (steps : List Step) :
    s.passes n steps = p.passes (Step.uses n steps) := by
  induction steps generalizing s p with
  | nil => rfl
  | cons t steps ih =>
    rw [passes, run, List.filterMap_cons, Step.uses_cons]
    by_cases ht : t.name = n
    · subst ht
      have hnext := ih (s := s.next t) (p := (p.use t.use).2) (by rw [plan?_next_self, hp]; rfl)
      rw [if_pos rfl, List.singleton_append, Plan.passes_cons, ← hnext, answer_eq, hp]
      cases t.use.isPass <;> simp [passes]
    · have hnext := ih (s := s.next t) (p := p) (by rw [plan?_next_of_ne s ht, hp])
      rw [if_neg ht, if_neg fun h => ht h.1]
      exact hnext

theorem bare_next (s : Session) (t : Step) (n : String) :
    ((s.next t).plan? n).map Plan.bare = (s.plan? n).map Plan.bare := by
  by_cases ht : t.name = n
  · subst ht
    rw [plan?_next_self, Option.map_map]
    exact congrArg (Option.map · (s.plan? t.name)) (funext fun p => p.bare_use t.use)
  · rw [plan?_next_of_ne s ht]

/-- Two sessions that differ at most in what the plan with the given name has included. -/
structure Alike (n : String) (s s' : Session) : Prop where
  others : ∀ m, m ≠ n → s.plan? m = s'.plan? m
  bare : (s.plan? n).map Plan.bare = (s'.plan? n).map Plan.bare

namespace Alike

theorem refl (n : String) (s : Session) : Alike n s s := ⟨fun _ _ => rfl, rfl⟩

theorem next (h : Alike n s s') (t : Step) : Alike n (s.next t) (s'.next t) := by
  refine ⟨fun m hm => ?_, by rw [bare_next, bare_next, h.bare]⟩
  by_cases ht : t.name = m
  · subst ht
    rw [plan?_next_self, plan?_next_self, h.others _ hm]
  · rw [plan?_next_of_ne s ht, plan?_next_of_ne s' ht, h.others m hm]

theorem next_left (h : Alike n s s') (ht : t.spares n = false) : Alike n (s.next t) s' := by
  rw [Step.spares, Bool.not_eq_false', Bool.and_eq_true, beq_iff_eq] at ht
  refine ⟨fun m hm => ?_, by rw [bare_next, h.bare]⟩
  rw [plan?_next_of_ne s (ht.1 ▸ hm.symm), h.others m hm]

theorem answer (h : Alike n s s') (ht : t.spares n = true) : s.answer t = s'.answer t := by
  rw [answer_eq, answer_eq]
  by_cases hn : t.name = n
  · have hadds : t.use.adds = false := by simpa [Step.spares, hn] using ht
    have hbare := h.bare
    rw [hn]
    cases hp : s.plan? n with
    | none =>
      rw [hp] at hbare
      rw [Option.map_eq_none_iff.1 hbare.symm]
    | some p =>
      rw [hp] at hbare
      obtain ⟨q, hq, hqp⟩ := Option.map_eq_some_iff.1 hbare.symm
      rw [hq, Option.map_some, Option.map_some, Plan.use_congr hadds hqp]
  · rw [h.others _ hn]

/-- The steps that add nothing to the plan are answered as if the others had not been made. -/
theorem run_filter (h : Alike n s s') (steps : List Step) :
    (s.run steps).filter (fun a => a.1.spares n) = s'.run (steps.filter (Step.spares n)) := by
  induction steps generalizing s s' with
  | nil => rfl
  | cons t steps ih =>
    rw [run, List.filter_cons, List.filter_cons]
    cases ht : t.spares n with
    | true =>
      rw [if_pos rfl, if_pos rfl, run, h.answer ht, ih (h.next t)]
    | false =>
      rw [if_neg Bool.false_ne_true, if_neg Bool.false_ne_true, ih (h.next_left ht)]

end Alike

/-- How the plan `p` under the name `n` fares, whatever steps are made. -/
structure Fares (s : Session) (n : String) (p : Plan) : Prop where
  becomes : ∀ steps, ∃ q, (s.after steps).plan? n = some q ∧ p.Becomes (Step.uses n steps) q
  grows : ∀ steps later, ∃ q r, (s.after steps).plan? n = some q ∧
    (s.after (steps ++ later)).plan? n = some r ∧ q.included <:+ r.included
  spared : ∀ steps t, t.spares n = true →
    (s.after (steps ++ [t])).plan? n = (s.after steps).plan? n
  noPasses : ∀ steps, ⟨n, .includes⟩ ∉ steps → s.passes n steps = []
  /-- The first pass and those after it. -/
  passes : ∀ steps later, ⟨n, .includes⟩ ∉ steps → ∃ q users rest,
    (s.after steps).plan? n = some q ∧ users = Plan.users q.included [] p.features ∧
    s.passes n (steps ++ ⟨n, .includes⟩ :: later) = .ok (Plan.passBlock users) :: rest ∧
    ((users.flatMap Prod.snd).map fun d => d.className.key?).Nodup ∧
    (∀ d ∈ users.flatMap Prod.snd, ∀ k, d.className.key? = some k → k.isAmong q.included = false) ∧
    ∀ b ∈ rest, b = .ok p.ownBlock
  /-- The blocks of the other uses and of the other plans. -/
  unaffected : ∀ steps steps', steps.filter (Step.spares n) = steps'.filter (Step.spares n) →
    (s.run steps).filter (fun a => a.1.spares n) = (s.run steps').filter (fun a => a.1.spares n)

/-- A plan in a session only gains what its own steps add to it. Over all its include passes each library
is brought once, by the first pass, if it was not included before. No other block depends on this. -/
theorem fares (hp : s.plan? n = some p) (h : ∀ f ∈ p.features, f.Includable) : s.Fares n p where
  becomes steps := ⟨_, plan?_after hp steps, Plan.becomes_after h _⟩
  grows steps later := by
    have hsteps := Plan.becomes_after h (Step.uses n steps)
    rw [← Plan.features_of_bare hsteps.bare] at h
    refine ⟨_, _, plan?_after hp steps, ?_, (Plan.becomes_after h (Step.uses n later)).grows⟩
    rw [after_append]
    exact plan?_after (plan?_after hp steps) later
  spared steps t ht := by
    rw [after_append]
    change ((s.after steps).next t).plan? n = _
    by_cases hn : t.name = n
    · subst hn
      have hadds : t.use.adds = false := by simpa [Step.spares] using ht
      rw [plan?_next_self, plan?_after hp, Option.map_some, Plan.use_of_not_adds hadds]
    · exact plan?_next_of_ne _ hn
  noPasses steps hsteps := by
    rw [passes_eq hp, Plan.passes_eq_nil (mt Step.mem_uses.1 hsteps)]
  passes steps later hsteps := by
    obtain ⟨rest, hpasses, hrest⟩ := Plan.passes_of_first h (mt Step.mem_uses.1 hsteps)
      (Step.uses n later)
    obtain ⟨hnodup, hnew⟩ := Plan.users_nodup h
    refine ⟨_, _, rest, plan?_after hp steps, rfl, ?_, hnodup, hnew, hrest⟩
    rw [passes_eq hp, Step.uses_append, Step.uses_cons, if_pos rfl]
    exact hpasses
  unaffected steps steps' hsteps := by
    rw [(Alike.refl n s).run_filter, hsteps, (Alike.refl n s).run_filter]

/-- Two plans with the same features; only one of them has something included. -/
def twoFans : Session :=
  ⟨[("first", Plan.fanAndLamp), ("second", { features := Plan.fanAndLamp.features })]⟩

theorem fares_twoFans :
    twoFans.plan? "first" = some Plan.fanAndLamp ∧
      (∀ f ∈ Plan.fanAndLamp.features, f.Includable) ∧ twoFans.Fares "first" Plan.fanAndLamp ∧
      (twoFans.passes "first"
          [⟨"second", .includes⟩, ⟨"first", .mark (.text "SPI")⟩, ⟨"first", .includes⟩,
            ⟨"first", .loop⟩, ⟨"first", .includes⟩]).map (fun b => b.toOption.map Block.text) =
        [some ("#include <Wire.h>\n#include <Fan.h>\nFan fan;\n\n#include <Lamp.h>\nLamp lamp;\n\n" ++
            "#include <utility/FirmataExt.h>\nFirmataExt firmataExt;\n\n"),
          some ("#include <Fan.h>\nFan fan;\n\n#include <Lamp.h>\nLamp lamp;\n\n" ++
            "#include <utility/FirmataExt.h>\nFirmataExt firmataExt;\n\n")] :=
  ⟨rfl, Plan.includable_fanAndLamp, fares rfl Plan.includable_fanAndLamp, by decide⟩

end Session

end FirmataSketch
