import FirmataSketch.Proofs.Text.Lines
import FirmataSketch.Text.Word
import Mathlib.Data.List.Nodup

/-! Words: names that are accepted are words, perhaps with a line end after them. Two of them may be
the same word in code. -/

namespace FirmataSketch.Text

/-- A name as the code reads it: a line end after it does not count. -/
def bare (s : String) : String :=
  if s.toList.getLast? = some '\n' then String.ofList s.toList.dropLast else s

/-- Letters of ASCII by their codes. -/
theorem isAlpha_iff {c : Char} : c.isAlpha = true ↔
    65 ≤ c.toNat ∧ c.toNat ≤ 90 ∨ 97 ≤ c.toNat ∧ c.toNat ≤ 122 := by
  have hcases : c.isAlpha = (c.isUpper || c.isLower) := rfl
  have hupper : c.isUpper = true ↔ 65 ≤ c.toNat ∧ c.toNat ≤ 90 := decide_eq_true_iff
  have hlower : c.isLower = true ↔ 97 ≤ c.toNat ∧ c.toNat ≤ 122 :=
    Bool.and_eq_true_iff.trans (and_congr decide_eq_true_iff decide_eq_true_iff)
  rw [hcases, Bool.or_eq_true, hupper, hlower]

theorem isDigit_eq_false_of_isAlpha {c : Char} (h : c.isAlpha = true) : c.isDigit = false := by
  refine Bool.eq_false_iff.2 fun hdigit => ?_
  have hle : c.toNat ≤ 57 := (Char.isDigit_iff_toNat.1 hdigit).2
  rw [isAlpha_iff] at h
  omega

theorem isWordPart_of_mem {cs : List Char} (h : isWord cs = true) {c : Char} (hc : c ∈ cs) :
    isWordPart c = true := by
  cases cs with
  | nil => cases h
  | cons d cs =>
    rw [isWord, Bool.and_eq_true, List.all_eq_true] at h
    rcases List.mem_cons.1 hc with rfl | hc
    · have hstart := h.1
      rw [isWordStart, Bool.or_eq_true] at hstart
      rw [isWordPart, Bool.or_eq_true, Char.isAlphanum, Bool.or_eq_true]
      exact hstart.imp_left .inl
    · exact h.2 c hc

theorem not_mem_of_isWord {cs : List Char} {c : Char} (h : isWord cs = true)
    (hc : isWordPart c = false) : c ∉ cs := by
  intro hmem
  rw [isWordPart_of_mem h hmem] at hc
  cases hc

theorem bare_of_word {s : String} (h : isWord s.toList = true) : bare s = s :=
  if_neg fun hlast => not_mem_of_isWord h (by decide) (List.mem_of_getLast? hlast)

theorem bare_append_lineEnd (s : String) : bare (s ++ "\n") = s := by
  have hlast : (s ++ "\n").toList.getLast? = some '\n' := by simp
  have hrest : (s ++ "\n").toList.dropLast = s.toList := by simp
  rw [bare, if_pos hlast, hrest, String.ofList_toList]

theorem acceptsWord_cases {s : String} (h : acceptsWord s = true) :
    isWord s.toList = true ∨ ∃ t, isWord t.toList = true ∧ s = t ++ "\n" := by
  rw [acceptsWord, Bool.or_eq_true, Bool.and_eq_true, beq_iff_eq] at h
  refine h.imp_right fun ⟨hlast, hword⟩ => ⟨String.ofList s.toList.dropLast, ?_, ?_⟩
  · rwa [String.toList_ofList]
  · rw [← String.toList_inj, String.toList_append, String.toList_ofList]
    exact (List.dropLast_append_getLast? '\n' hlast).symm

/-- A name as users are told to choose it: letters, digits and underscores of ASCII, and no digit
first. -/
structure IsName (s : String) : Prop where
  nonempty : s.toList ≠ []
  characters : ∀ c ∈ s.toList, c.isAlpha = true ∨ c.isDigit = true ∨ c = '_'
  start : ∀ c, s.toList.head? = some c → c.isDigit = false

theorem isWord_iff_isName {s : String} : isWord s.toList = true ↔ IsName s := by
  have hpart (c : Char) : isWordPart c = true ↔ c.isAlpha = true ∨ c.isDigit = true ∨ c = '_' := by
    simp [isWordPart, Char.isAlphanum, or_assoc]
  -- a letter is no digit, so the first character of a word is a part of it that is no digit
  have hstart (c : Char) : isWordStart c = true ↔ isWordPart c = true ∧ c.isDigit = false := by
    have hunderscore : c = '_' → c.isDigit = false := by
      rintro rfl
      decide
    rw [hpart, isWordStart, Bool.or_eq_true, beq_iff_eq]
    constructor
    · rintro (h | h)
      · exact ⟨.inl h, isDigit_eq_false_of_isAlpha h⟩
      · exact ⟨.inr (.inr h), hunderscore h⟩
    · rintro ⟨h | h | h, hno⟩
      · exact .inl h
      · rw [h] at hno
        cases hno
      · exact .inr h
  constructor
  · intro h
    refine ⟨fun hnil => ?_, fun c hc => (hpart c).1 (isWordPart_of_mem h hc), fun c hc => ?_⟩
    · rw [hnil] at h
      cases h
    · cases hs : s.toList with
      | nil => rw [hs] at hc; cases hc
      | cons d cs =>
        rw [hs, List.head?_cons, Option.some.injEq] at hc
        rw [hs, isWord, Bool.and_eq_true] at h
        exact hc ▸ ((hstart d).1 h.1).2
  · rintro ⟨hnonempty, hcharacters, hfirst⟩
    cases hs : s.toList with
    | nil => exact absurd hs hnonempty
    | cons c cs =>
      rw [hs] at hcharacters hfirst
      rw [isWord, Bool.and_eq_true, List.all_eq_true]
      refine ⟨(hstart c).2 ⟨(hpart c).2 (hcharacters c List.mem_cons_self), hfirst c rfl⟩, ?_⟩
      exact fun d hd => (hpart d).2 (hcharacters d (List.mem_cons_of_mem c hd))

theorem IsName.isLine {s : String} (h : IsName s) : IsLine s :=
  not_mem_of_isWord (isWord_iff_isName.2 h) (by decide)

/-- The texts that are accepted as names: names, and names with a line end after them. -/
theorem acceptsWord_iff {s : String} :
    acceptsWord s = true ↔ IsName s ∨ ∃ w, IsName w ∧ s = w ++ "\n" := by
  constructor
  · intro h
    refine (acceptsWord_cases h).imp isWord_iff_isName.1 ?_
    exact fun ⟨w, hw, hs⟩ => ⟨w, isWord_iff_isName.1 hw, hs⟩
  · rintro (h | ⟨w, hw, rfl⟩)
    · rw [acceptsWord, isWord_iff_isName.2 h]
      rfl
    · have hlast : (w ++ "\n").toList.getLast? = some '\n' := by simp
      have hrest : (w ++ "\n").toList.dropLast = w.toList := by simp
      rw [acceptsWord, hlast, hrest, isWord_iff_isName.2 hw]
      exact Bool.or_true _

/-- A line with an accepted name in it is one line in a text, unless the name has a line end. Then the
name ends the line, and what follows the name is a line of its own. -/
theorem lines_name {a b s : String} (ha : IsLine a) (hb : IsLine b) (h : acceptsWord s = true) :
    isWord s.toList = true ∧ lines (a ++ s ++ b ++ "\n") = [a ++ s ++ b] ∨
      ∃ w, isWord w.toList = true ∧ s = w ++ "\n" ∧ lines (a ++ s ++ b ++ "\n") = [a ++ w, b] := by
  have hword {w : String} (hw : isWord w.toList = true) : IsLine w :=
    not_mem_of_isWord hw (by decide)
  refine (acceptsWord_cases h).imp (fun hs => ⟨hs, ?_⟩) fun ⟨w, hw, hs⟩ => ⟨w, hw, hs, ?_⟩
  · exact lines_of_isLine (isLine_append.2 ⟨isLine_append.2 ⟨ha, hword hs⟩, hb⟩)
  · have htwo : a ++ s ++ b ++ "\n" = unlines [a ++ w, b] := by
      rw [hs]
      simp [unlines, String.append_assoc]
    rw [htwo]
    refine lines_unlines ?_
    simpa using ⟨⟨ha, hword hw⟩, hb⟩

theorem bare_eq_bare_iff {s t : String} (hs : acceptsWord s = true) (ht : acceptsWord t = true) :
    bare s = bare t ↔ s = t ∨ s = t ++ "\n" ∨ t = s ++ "\n" := by
  constructor
  · intro h
    rcases acceptsWord_cases hs with hs | ⟨s', hs', rfl⟩ <;>
      rcases acceptsWord_cases ht with ht | ⟨t', ht', rfl⟩
    · rw [bare_of_word hs, bare_of_word ht] at h
      exact .inl h
    · rw [bare_of_word hs, bare_append_lineEnd] at h
      exact .inr (.inr (h ▸ rfl))
    · rw [bare_append_lineEnd, bare_of_word ht] at h
      exact .inr (.inl (h ▸ rfl))
    · rw [bare_append_lineEnd, bare_append_lineEnd] at h
      exact .inl (h ▸ rfl)
  · -- A name that is another one and a line end is the word of that one, which has no line end.
    have hword {u : String} (hu : acceptsWord (u ++ "\n") = true) : bare u = u := by
      rcases acceptsWord_cases hu with hu | ⟨v, hv, huv⟩
      · exact absurd (by simp) (not_mem_of_isWord hu (c := '\n') (by decide))
      · have hsame := congrArg bare huv
        rw [bare_append_lineEnd, bare_append_lineEnd] at hsame
        exact hsame ▸ bare_of_word hv
    rintro (rfl | rfl | rfl)
    · rfl
    · rw [bare_append_lineEnd, hword hs]
    · rw [bare_append_lineEnd, hword ht]

theorem bare_nodup_iff {names : List String} (hnames : ∀ s ∈ names, acceptsWord s = true)
    (hnodup : names.Nodup) :
    (names.map bare).Nodup ↔ ∀ s ∈ names, ∀ t ∈ names, s ≠ t ++ "\n" := by
  rw [List.nodup_map_iff_inj_on hnodup]
  have hne (s : String) : s ≠ s ++ "\n" := by
    intro h
    have hlength := congrArg (fun u : String => u.toList.length) h
    simp at hlength
  constructor
  · intro h s hs t ht hst
    have hsame := h s hs t ht
      ((bare_eq_bare_iff (hnames s hs) (hnames t ht)).2 (.inr (.inl hst)))
    exact hne t (hsame ▸ hst)
  · intro h s hs t ht hsame
    rcases (bare_eq_bare_iff (hnames s hs) (hnames t ht)).1 hsame with hst | hst | hst
    · exact hst
    · exact absurd hst (h s hs t ht)
    · exact absurd hst (h t ht s hs)

theorem not_mem_of_acceptsWord {s : String} {c : Char} (h : acceptsWord s = true)
    (hc : isWordPart c = false) (hend : c ≠ '\n') : c ∉ s.toList := by
  rcases acceptsWord_cases h with h | ⟨t, ht, rfl⟩
  · exact not_mem_of_isWord h hc
  · have hlast : "\n".toList = ['\n'] := rfl
    rw [String.toList_append, List.mem_append, hlast, List.mem_singleton, not_or]
    exact ⟨not_mem_of_isWord ht hc, hend⟩

end FirmataSketch.Text
