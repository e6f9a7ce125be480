import FirmataSketch.Proofs.Text.Word
import FirmataSketch.Text.Lines

/-! Tokens of code: words and single marks, with white space between them. Code that is written
line by line has the tokens of its lines. -/

namespace FirmataSketch.Sketch

open Text (isWord isWordPart isWordPart_of_mem)

inductive Token where
  | word (cs : List Char)
  | mark (c : Char)
  deriving DecidableEq, Repr

/-- Puts a letter before the tokens of what follows it, and into the word that begins there. -/
def addLetter (c : Char) (joins : Bool) : List Token → List Token
  | .word w :: ts => if joins then .word (c :: w) :: ts else .word [c] :: .word w :: ts
  | ts => .word [c] :: ts

def tokens : List Char → List Token
  | [] => []
  | c :: cs =>
    if isWordPart c then addLetter c (cs.head?.any isWordPart) (tokens cs)
    else if c.isWhitespace then tokens cs
    else .mark c :: tokens cs

theorem addLetter_false (c : Char) (ts : List Token) : addLetter c false ts = .word [c] :: ts := by
  unfold addLetter
  split <;> rfl

theorem addLetter_append (c : Char) (joins : Bool) {ts us : List Token} (h : ts ≠ []) :
    addLetter c joins (ts ++ us) = addLetter c joins ts ++ us := by
  match ts with
  | .word w :: ts => cases joins <;> rfl
  | .mark m :: ts => rfl

theorem tokens_ne_nil {cs : List Char} (h : cs.head?.any isWordPart = true) : tokens cs ≠ [] := by
  match cs with
  | c :: cs =>
    have hc : isWordPart c = true := h
    rw [tokens, if_pos hc]
    unfold addLetter
    split
    · split <;> exact List.cons_ne_nil _ _
    · exact List.cons_ne_nil _ _

theorem tokens_space {c : Char} (hp : isWordPart c = false) (hs : c.isWhitespace = true)
    (cs : List Char) : tokens (c :: cs) = tokens cs := by
  rw [tokens, if_neg (by simp [hp]), if_pos hs]

theorem tokens_mark {c : Char} (hp : isWordPart c = false) (hs : c.isWhitespace = false)
    (cs : List Char) : tokens (c :: cs) = .mark c :: tokens cs := by
  rw [tokens, if_neg (by simp [hp]), if_neg (by simp [hs])]

theorem tokens_append_space {s : Char} (hp : isWordPart s = false) (hs : s.isWhitespace = true)
    (cs ds : List Char) : tokens (cs ++ s :: ds) = tokens cs ++ tokens ds := by
  induction cs with
  | nil => exact tokens_space hp hs ds
  | cons c cs ih =>
    -- whether a word goes on is seen from the next character, which may be the white space itself
    have hhead : (cs ++ s :: ds).head?.any isWordPart = cs.head?.any isWordPart := by
      cases cs with
      | nil => simpa using hp
      | cons => rfl
    rw [List.cons_append, tokens, tokens, hhead, ih]
    split
    · cases hj : cs.head?.any isWordPart with
      | false => rw [addLetter_false, addLetter_false, List.cons_append]
      | true => exact addLetter_append c true (tokens_ne_nil hj)
    · split <;> rfl

theorem tokens_word_append {w ds : List Char} (hne : w ≠ []) (hw : ∀ c ∈ w, isWordPart c = true)
    (hd : ds.head?.any isWordPart = false) : tokens (w ++ ds) = .word w :: tokens ds := by
  induction w with
  | nil => exact absurd rfl hne
  | cons c w ih =>
    rw [List.cons_append, tokens, if_pos (hw c List.mem_cons_self)]
    cases w with
    | nil => rw [List.nil_append, hd, addLetter_false]
    | cons b w =>
      have hb : ((b :: w) ++ ds).head?.any isWordPart = true := by simp [hw b (by simp)]
      rw [hb, ih (List.cons_ne_nil _ _) fun a ha => hw a (List.mem_cons_of_mem _ ha)]
      rfl

theorem tokens_word_mark {w : List Char} {c : Char} (hw : isWord w = true)
    (hp : isWordPart c = false) (hs : c.isWhitespace = false) (cs : List Char) :
    tokens (w ++ c :: cs) = .word w :: .mark c :: tokens cs := by
  have hne : w ≠ [] := by
    rintro rfl
    cases hw
  rw [tokens_word_append hne (fun _ hmem => isWordPart_of_mem hw hmem) (by simpa using hp),
    tokens_mark hp hs]

theorem tokens_spaces (n : Nat) (cs : List Char) :
    tokens (List.replicate n ' ' ++ cs) = tokens cs := by
  induction n with
  | zero => rfl
  | succ n ih =>
    rw [List.replicate_succ, List.cons_append, tokens_space (by decide) (by decide), ih]

/-- The tokens of code that is written in the given lines. -/
def lineTokens (ls : List String) : List Token := ls.flatMap fun l => tokens l.toList

theorem tokens_unlines (ls : List String) : tokens (Text.unlines ls).toList = lineTokens ls := by
  induction ls with
  | nil => rfl
  | cons l ls ih =>
    have hjoin : (Text.unlines (l :: ls)).toList = l.toList ++ '\n' :: (Text.unlines ls).toList := by
      simp [Text.unlines]
    rw [hjoin, tokens_append_space (by decide) (by decide), ih, lineTokens, lineTokens,
      List.flatMap_cons]

end FirmataSketch.Sketch
