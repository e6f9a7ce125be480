import FirmataSketch.Proofs.Code.Token
import FirmataSketch.Sketch.Code

/-! Reading code: a function whose body has loops, conditions, breaks and calls without arguments.
A function that is written with such statements is read back as it was, without the blank lines. -/

namespace FirmataSketch.Sketch

open Text (isWord)

/-- A block that is still open: the statements before it and what it becomes when it is closed. -/
structure Opened where
  before : List Stmt
  close : List Stmt → Stmt

def opening? (w : List Char) : Option (Test → List Stmt → Stmt) :=
  if w = "while".toList then some .loopWhile
  else if w = "if".toList then some .when
  else none

/-- Reads the statements of a body up to the brace that closes the function. A word is a keyword
only where the mark after it allows no call. -/
def readBody : List Opened → List Stmt → List Token → Option (List Stmt)
  | os, ss, .mark '\x7d' :: ts =>
    match os with
    | o :: os => readBody os (o.before ++ [o.close ss]) ts
    | [] => if ts.isEmpty then some ss else none
  | os, ss, .word w :: .mark ';' :: ts =>
    if w = "break".toList then readBody os (ss ++ [.stop]) ts else none
  | os, ss, .word x :: .mark '.' :: .word a :: .mark '(' :: .mark ')' :: .mark ';' :: ts =>
    readBody os (ss ++ [.call (String.ofList x) (String.ofList a) []]) ts
  | os, ss, .word k :: .mark '(' :: .word x :: .mark '.' :: .word q :: .mark '(' :: .mark ')' ::
      .mark ')' :: .mark '\x7b' :: ts =>
    match opening? k with
    | some make => readBody (⟨ss, make ⟨String.ofList x, String.ofList q, false⟩⟩ :: os) [] ts
    | none => none
  | os, ss, .word k :: .mark '(' :: .mark '!' :: .word x :: .mark '.' :: .word q :: .mark '(' ::
      .mark ')' :: .mark ')' :: .mark '\x7b' :: ts =>
    match opening? k with
    | some make => readBody (⟨ss, make ⟨String.ofList x, String.ofList q, true⟩⟩ :: os) [] ts
    | none => none
  | _, _, _ => none

def readFunction : List Token → Option (String × List Stmt)
  | .word v :: .word f :: .mark '(' :: .mark ')' :: .mark '\x7b' :: ts =>
    if v = "void".toList then (readBody [] [] ts).map fun ss => (String.ofList f, ss) else none
  | _ => none

def readText (s : String) : Option (String × List Stmt) := readFunction (tokens s.toList)

def IsName (s : String) : Prop := isWord s.toList = true

instance (s : String) : Decidable (IsName s) := inferInstanceAs (Decidable (_ = true))

def Test.IsNamed (t : Test) : Prop := IsName t.target ∧ IsName t.query

instance (t : Test) : Decidable t.IsNamed := inferInstanceAs (Decidable (_ ∧ _))

/-- The statements that are read from written ones. -/
inductive Reading : List Stmt → List Stmt → Prop where
  | nil : Reading [] []
  | blank {ss rs : List Stmt} : Reading ss rs → Reading (.blank :: ss) rs
  | call {target action : String} {ss rs : List Stmt} : IsName target → IsName action →
      Reading ss rs → Reading (.call target action [] :: ss) (.call target action [] :: rs)
  | stop {ss rs : List Stmt} : Reading ss rs → Reading (.stop :: ss) (.stop :: rs)
  | loopWhile {t : Test} {body read ss rs : List Stmt} : t.IsNamed → Reading body read →
      Reading ss rs → Reading (.loopWhile t body :: ss) (.loopWhile t read :: rs)
  | when {t : Test} {body read ss rs : List Stmt} : t.IsNamed → Reading body read →
      Reading ss rs → Reading (.when t body :: ss) (.when t read :: rs)

theorem Reading.append {ss rs ss' rs' : List Stmt} (h : Reading ss rs) (h' : Reading ss' rs') :
    Reading (ss ++ ss') (rs ++ rs') := by
  induction h with
  | nil => exact h'
  | blank _ ih => exact .blank ih
  | call ht ha _ ih => exact .call ht ha ih
  | stop _ ih => exact .stop ih
  | loopWhile ht hb _ _ ih => exact .loopWhile ht hb ih
  | when ht hb _ _ ih => exact .when ht hb ih

theorem reading_calls {xs : List String} {action : String} (ha : IsName action)
    (hx : ∀ x ∈ xs, IsName x) :
    Reading (xs.map fun x => .call x action []) (xs.map fun x => .call x action []) := by
  induction xs with
  | nil => exact .nil
  | cons x xs ih =>
    exact .call (hx x List.mem_cons_self) ha (ih fun y hy => hx y (List.mem_cons_of_mem _ hy))

def Test.tokens (t : Test) : List Token :=
  (if t.negated then [.mark '!'] else []) ++
    [.word t.target.toList, .mark '.', .word t.query.toList, .mark '(', .mark ')']

theorem tokens_indented (depth : Nat) (s : String) :
    tokens (indented depth s).toList = tokens s.toList := by
  rw [indented, String.toList_append, String.toList_ofList, tokens_spaces]

theorem tokens_name_mark {s : String} {c : Char} (hs : IsName s) (hp : Text.isWordPart c = false)
    (hc : c.isWhitespace = false) (cs : List Char) :
    tokens (s.toList ++ c :: cs) = .word s.toList :: .mark c :: tokens cs :=
  tokens_word_mark hs hp hc cs

theorem tokens_call {target action : String} (ht : IsName target) (ha : IsName action) :
    tokens (target ++ "." ++ action ++ "(" ++ String.intercalate ", " [] ++ ");").toList =
      [.word target.toList, .mark '.', .word action.toList, .mark '(', .mark ')', .mark ';'] := by
  have hchars : (target ++ "." ++ action ++ "(" ++ String.intercalate ", " [] ++ ");").toList =
      target.toList ++ '.' :: (action.toList ++ '(' :: [')', ';']) := by simp
  rw [hchars, tokens_name_mark ht (by decide) (by decide),
    tokens_name_mark ha (by decide) (by decide)]
  rfl

theorem tokens_test {t : Test} (h : t.IsNamed) (cs : List Char) :
    tokens (t.text.toList ++ cs) = t.tokens ++ tokens cs := by
  have hquery : tokens (t.target.toList ++ '.' :: (t.query.toList ++ '(' :: ')' :: cs)) =
      .word t.target.toList :: .mark '.' :: .word t.query.toList :: .mark '(' :: .mark ')' ::
        tokens cs := by
    rw [tokens_name_mark h.1 (by decide) (by decide), tokens_name_mark h.2 (by decide) (by decide),
      tokens_mark (by decide) (by decide)]
  cases hn : t.negated with
  | false =>
    have hchars : t.text.toList ++ cs =
        t.target.toList ++ '.' :: (t.query.toList ++ '(' :: ')' :: cs) := by simp [Test.text, hn]
    rw [hchars, hquery]
    simp [Test.tokens, hn]
  | true =>
    have hchars : t.text.toList ++ cs =
        '!' :: (t.target.toList ++ '.' :: (t.query.toList ++ '(' :: ')' :: cs)) := by
      simp [Test.text, hn]
    rw [hchars, tokens_mark (by decide) (by decide), hquery]
    simp [Test.tokens, hn]

theorem tokens_while {t : Test} (h : t.IsNamed) :
    tokens ("while(" ++ t.text ++ ") \x7b").toList =
      .word "while".toList :: .mark '(' :: (t.tokens ++ [.mark ')', .mark '\x7b']) := by
  have hchars : ("while(" ++ t.text ++ ") \x7b").toList =
      "while".toList ++ '(' :: (t.text.toList ++ [')', ' ', '\x7b']) := by simp
  rw [hchars, tokens_word_mark (by decide) (by decide) (by decide), tokens_test h]
  rfl

theorem tokens_if {t : Test} (h : t.IsNamed) :
    tokens ("if (" ++ t.text ++ ") \x7b").toList =
      .word "if".toList :: .mark '(' :: (t.tokens ++ [.mark ')', .mark '\x7b']) := by
  have hchars : ("if (" ++ t.text ++ ") \x7b").toList =
      "if".toList ++ ' ' :: ('(' :: (t.text.toList ++ [')', ' ', '\x7b'])) := by simp
  rw [hchars, tokens_append_space (by decide) (by decide), tokens_mark (by decide) (by decide),
    tokens_test h]
  rfl

theorem tokens_closing (depth : Nat) : tokens (indented depth "\x7d").toList = [.mark '\x7d'] := by
  rw [tokens_indented]
  rfl

theorem readBody_call (os : List Opened) (ss : List Stmt) (target action : String)
    (ts : List Token) :
    readBody os ss (.word target.toList :: .mark '.' :: .word action.toList :: .mark '(' ::
      .mark ')' :: .mark ';' :: ts) = readBody os (ss ++ [.call target action []]) ts := by
  rw [readBody, String.ofList_toList, String.ofList_toList]

theorem readBody_stop (os : List Opened) (ss : List Stmt) (ts : List Token) :
    readBody os ss (.word "break".toList :: .mark ';' :: ts) = readBody os (ss ++ [.stop]) ts := by
  rw [readBody, if_pos rfl]

theorem readBody_opening {k : List Char} {make : Test → List Stmt → Stmt}
    (hk : opening? k = some make) (os : List Opened) (ss : List Stmt) (t : Test)
    (ts : List Token) :
    readBody os ss (.word k :: .mark '(' :: (t.tokens ++ .mark ')' :: .mark '\x7b' :: ts)) =
      readBody (⟨ss, make t⟩ :: os) [] ts := by
  -- the mark before a negated test is a token of its own, so each form has its own equation
  obtain ⟨target, query, negated⟩ := t
  cases negated with
  | false =>
    simp only [Test.tokens, Bool.false_eq_true, if_false, List.nil_append, List.cons_append]
    rw [readBody, hk]
    simp only [String.ofList_toList]
  | true =>
    simp only [Test.tokens, if_true, List.nil_append, List.cons_append]
    rw [readBody, hk]
    simp only [String.ofList_toList]

theorem readBody_closing (o : Opened) (os : List Opened) (ss : List Stmt) (ts : List Token) :
    readBody (o :: os) ss (.mark '\x7d' :: ts) = readBody os (o.before ++ [o.close ss]) ts := by
  rw [readBody]

theorem lineTokens_cons (l : String) (ls : List String) :
    lineTokens (l :: ls) = tokens l.toList ++ lineTokens ls := List.flatMap_cons

theorem lineTokens_append (ls ls' : List String) :
    lineTokens (ls ++ ls') = lineTokens ls ++ lineTokens ls' := List.flatMap_append

/-- A block whose inner lines are read is read as a whole. -/
theorem readBody_block {k : List Char} {make : Test → List Stmt → Stmt}
    (hk : opening? k = some make) {head : String} {t : Test}
    (hhead : tokens head.toList =
      .word k :: .mark '(' :: (t.tokens ++ [.mark ')', .mark '\x7b']))
    {inner : List String} {read : List Stmt}
    (hinner : ∀ os done ts,
      readBody os done (lineTokens inner ++ ts) = readBody os (done ++ read) ts)
    (depth : Nat) (os : List Opened) (done : List Stmt) (ts : List Token) :
    readBody os done
        (lineTokens (indented depth head :: (inner ++ [indented depth "\x7d"])) ++ ts) =
      readBody os (done ++ [make t read]) ts := by
  have hclose : lineTokens [indented depth "\x7d"] = [.mark '\x7d'] := by
    rw [lineTokens_cons, tokens_closing]
    rfl
  rw [lineTokens_cons, tokens_indented, hhead, lineTokens_append, hclose]
  simp only [List.cons_append, List.nil_append, List.append_assoc, readBody_opening hk, hinner,
    readBody_closing]

/-- Written statements are read after those that were read before them. -/
theorem readBody_lines {ss rs : List Stmt} (h : Reading ss rs) (depth : Nat) (os : List Opened)
    (done : List Stmt) (ts : List Token) :
    readBody os done (lineTokens (Stmt.linesAll depth ss) ++ ts) = readBody os (done ++ rs) ts := by
  -- the body of a block starts with nothing read and one more block open, so all of these vary
  induction h generalizing depth os done ts with
  | nil => rw [Stmt.linesAll, List.append_nil]; rfl
  | blank _ ih =>
    rw [Stmt.linesAll, Stmt.lines, lineTokens_append]
    exact ih depth os done ts
  | call ht ha _ ih =>
    rw [Stmt.linesAll, Stmt.lines, List.cons_append, lineTokens_cons, tokens_indented,
      tokens_call ht ha]
    simp only [List.cons_append, List.nil_append, readBody_call, ih, List.append_assoc]
  | stop _ ih =>
    have hstop : tokens "break;".toList = [.word "break".toList, .mark ';'] := rfl
    rw [Stmt.linesAll, Stmt.lines, List.cons_append, lineTokens_cons, tokens_indented, hstop]
    simp only [List.cons_append, List.nil_append, readBody_stop, ih, List.append_assoc]
  | loopWhile ht _ _ ihb ih =>
    have hopen : opening? "while".toList = some .loopWhile := rfl
    rw [Stmt.linesAll, Stmt.lines, lineTokens_append, List.append_assoc,
      readBody_block hopen (tokens_while ht) (ihb (depth + 1)), ih, List.append_assoc]
    rfl
  | when ht _ _ ihb ih =>
    have hopen : opening? "if".toList = some .when := rfl
    rw [Stmt.linesAll, Stmt.lines, lineTokens_append, List.append_assoc,
      readBody_block hopen (tokens_if ht) (ihb (depth + 1)), ih, List.append_assoc]
    rfl

theorem tokens_heading {f : String} (hf : IsName f) :
    tokens ("void " ++ f ++ "()").toList =
      [.word "void".toList, .word f.toList, .mark '(', .mark ')'] := by
  have hchars : ("void " ++ f ++ "()").toList =
      "void".toList ++ ' ' :: (f.toList ++ '(' :: [')']) := by simp
  rw [hchars, tokens_append_space (by decide) (by decide),
    tokens_name_mark hf (by decide) (by decide)]
  rfl

/-- The text of a function is read back. -/
theorem readText_define {f : String} {body read : List Stmt} (hf : IsName f)
    (h : Reading body read) : readText (Block.text [.define f body]) = some (f, read) := by
  have hlines : Block.lines [.define f body] =
      ("void " ++ f ++ "()") :: "\x7b" :: (Stmt.linesAll 1 body ++ ["\x7d"]) :=
    List.append_nil _
  have hbrace : tokens "\x7b".toList = [.mark '\x7b'] := rfl
  have hend : lineTokens ["\x7d"] = [.mark '\x7d'] := rfl
  rw [readText, Block.text, tokens_unlines, hlines, lineTokens_cons, lineTokens_cons,
    tokens_heading hf, hbrace, lineTokens_append, hend]
  simp only [List.cons_append, List.nil_append, readFunction, if_true]
  -- the last brace closes the function, since no block is open any more
  rw [readBody_lines h, String.ofList_toList]
  rfl

end FirmataSketch.Sketch
