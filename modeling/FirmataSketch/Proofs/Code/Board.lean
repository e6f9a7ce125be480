import FirmataSketch.Sketch.Blocks

/-! Running code on a board: a queue of pending input, a message parser of which only one flag is
seen, a timer, and a trace of all that was done. A run has one outcome. -/

namespace FirmataSketch.Sketch

universe u v

/-- What is left open of a board: how its parser takes one unit of input, whether the parser is
then within a message, and the answer of the timer. -/
structure Runtime (S : Type u) (U : Type v) where
  consume : S → U → S
  midMessage : S → Bool
  elapsed : Bool

inductive Act (U : Type v) where
  | processed (unit : U)
  | called (target action : String)

structure Machine (S : Type u) (U : Type v) where
  queue : List U
  parser : S
  trace : List (Act U) := []

variable {S : Type u} {U : Type v} {r : Runtime S U}

namespace Runtime

/-- The answer to a question before it is negated. -/
def answer? (r : Runtime S U) (m : Machine S U) (t : Test) : Option Bool :=
  if t.target = protocol ∧ t.query = "available" then some !m.queue.isEmpty
  else if t.target = protocol ∧ t.query = "isParsingMessage" then some (r.midMessage m.parser)
  else if t.query = "elapsed" then some r.elapsed
  else none

def ask? (r : Runtime S U) (m : Machine S U) (t : Test) : Option Bool :=
  (r.answer? m t).map (xor t.negated)

/-- Processing input takes one unit from the queue; the actions of features leave a mark only. -/
def perform? (r : Runtime S U) (m : Machine S U) (target action : String) :
    Option (Machine S U) :=
  if target = protocol ∧ action = "processInput" then
    match m.queue with
    | [] => none
    | unit :: queue => some ⟨queue, r.consume m.parser unit, m.trace ++ [.processed unit]⟩
  else if action ∈ ["report", "update", "runTasks"] then
    some { m with trace := m.trace ++ [.called target action] }
  else none

end Runtime

/-- How statements end: with the last of them, or with a break. -/
inductive Exit where
  | finished
  | stopped
  deriving DecidableEq, Repr

inductive Runs (r : Runtime S U) : List Stmt → Machine S U → Exit → Machine S U → Prop where
  | nil {m : Machine S U} : Runs r [] m .finished m
  | blank {ss : List Stmt} {m m' : Machine S U} {e : Exit} :
      Runs r ss m e m' → Runs r (.blank :: ss) m e m'
  | call {target action : String} {ss : List Stmt} {m m₁ m' : Machine S U} {e : Exit} :
      r.perform? m target action = some m₁ → Runs r ss m₁ e m' →
      Runs r (.call target action [] :: ss) m e m'
  | stop {ss : List Stmt} {m : Machine S U} : Runs r (.stop :: ss) m .stopped m
  | whenFalse {t : Test} {body ss : List Stmt} {m m' : Machine S U} {e : Exit} :
      r.ask? m t = some false → Runs r ss m e m' → Runs r (.when t body :: ss) m e m'
  | whenTrue {t : Test} {body ss : List Stmt} {m m₁ m' : Machine S U} {e : Exit} :
      r.ask? m t = some true → Runs r body m .finished m₁ → Runs r ss m₁ e m' →
      Runs r (.when t body :: ss) m e m'
  | whenStopped {t : Test} {body ss : List Stmt} {m m' : Machine S U} :
      r.ask? m t = some true → Runs r body m .stopped m' →
      Runs r (.when t body :: ss) m .stopped m'
  | loopEnd {t : Test} {body ss : List Stmt} {m m' : Machine S U} {e : Exit} :
      r.ask? m t = some false → Runs r ss m e m' → Runs r (.loopWhile t body :: ss) m e m'
  | loopNext {t : Test} {body ss : List Stmt} {m m₁ m' : Machine S U} {e : Exit} :
      r.ask? m t = some true → Runs r body m .finished m₁ →
      Runs r (.loopWhile t body :: ss) m₁ e m' → Runs r (.loopWhile t body :: ss) m e m'
  | loopStopped {t : Test} {body ss : List Stmt} {m m₁ m' : Machine S U} {e : Exit} :
      r.ask? m t = some true → Runs r body m .stopped m₁ → Runs r ss m₁ e m' →
      Runs r (.loopWhile t body :: ss) m e m'

theorem Runs.deterministic {ss : List Stmt} {m m₁ m₂ : Machine S U} {e₁ e₂ : Exit}
    (h₁ : Runs r ss m e₁ m₁) (h₂ : Runs r ss m e₂ m₂) : e₁ = e₂ ∧ m₁ = m₂ := by
  -- a test has one answer, so at each statement the other run takes the branch that the first took
  induction h₁ generalizing e₂ m₂ with
  | nil => cases h₂; exact ⟨rfl, rfl⟩
  | blank _ ih => cases h₂ with | blank h => exact ih h
  | call hp _ ih =>
    cases h₂ with
    | call hp' h =>
      cases hp.symm.trans hp'
      exact ih h
  | stop => cases h₂; exact ⟨rfl, rfl⟩
  | whenFalse ht _ ih =>
    cases h₂ with
    | whenFalse _ h => exact ih h
    | whenTrue ht' => cases ht.symm.trans ht'
    | whenStopped ht' => cases ht.symm.trans ht'
  | whenTrue ht _ _ ihb ih =>
    cases h₂ with
    | whenFalse ht' => cases ht.symm.trans ht'
    | whenTrue _ hb h =>
      obtain ⟨-, rfl⟩ := ihb hb
      exact ih h
    | whenStopped _ hb => cases (ihb hb).1
  | whenStopped ht _ ihb =>
    cases h₂ with
    | whenFalse ht' => cases ht.symm.trans ht'
    | whenTrue _ hb => cases (ihb hb).1
    | whenStopped _ hb => exact ⟨rfl, (ihb hb).2⟩
  | loopEnd ht _ ih =>
    cases h₂ with
    | loopEnd _ h => exact ih h
    | loopNext ht' => cases ht.symm.trans ht'
    | loopStopped ht' => cases ht.symm.trans ht'
  | loopNext ht _ _ ihb ih =>
    cases h₂ with
    | loopEnd ht' => cases ht.symm.trans ht'
    | loopNext _ hb h =>
      obtain ⟨-, rfl⟩ := ihb hb
      exact ih h
    | loopStopped _ hb => cases (ihb hb).1
  | loopStopped ht _ _ ihb ih =>
    cases h₂ with
    | loopEnd ht' => cases ht.symm.trans ht'
    | loopNext _ hb => cases (ihb hb).1
    | loopStopped _ hb h =>
      obtain ⟨-, rfl⟩ := ihb hb
      exact ih h

theorem Runs.iff_eq {ss : List Stmt} {m m₁ : Machine S U} {e₁ : Exit} (h : Runs r ss m e₁ m₁)
    (e : Exit) (m' : Machine S U) : Runs r ss m e m' ↔ e = e₁ ∧ m' = m₁ :=
  ⟨fun h' => h'.deterministic h, fun ⟨he, hm⟩ => he ▸ hm ▸ h⟩

theorem Runs.append {ss ss' : List Stmt} {m m₁ m' : Machine S U} {e₀ e : Exit}
    (h : Runs r ss m e₀ m₁) (he : e₀ = .finished) (h' : Runs r ss' m₁ e m') :
    Runs r (ss ++ ss') m e m' := by
  -- a break would skip the statements that are put behind; a finished run has none at this level
  induction h with
  | nil => exact h'
  | blank _ ih => exact .blank (ih he h')
  | call hp _ ih => exact .call hp (ih he h')
  | stop => cases he
  | whenFalse ht _ ih => exact .whenFalse ht (ih he h')
  | whenTrue ht hb _ _ ih => exact .whenTrue ht hb (ih he h')
  | whenStopped => cases he
  | loopEnd ht _ ih => exact .loopEnd ht (ih he h')
  | loopNext ht hb _ _ ih => exact .loopNext ht hb (ih he h')
  | loopStopped ht hb _ _ ih => exact .loopStopped ht hb (ih he h')

end FirmataSketch.Sketch
