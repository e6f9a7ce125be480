import FirmataSketch.Proofs.Text.Common
import FirmataSketch.Proofs.Text.Word
import FirmataSketch.Text.Utf8
import Mathlib.Data.List.TakeWhile

/-! Encoding texts. Each text can be encoded but for surrogates without partners. -/

namespace FirmataSketch.Text

theorem isEncodable_plain (s : String) : IsEncodable s .plain := fun _ _ => rfl

/-- Only a document can spell surrogates. -/
theorem isEncodable_of_document {s : String} {spelling : Spelling}
    (h : spelling = .document → IsEncodable s) : IsEncodable s spelling := by
  cases spelling with
  | plain => exact isEncodable_plain s
  | document => exact h rfl

theorem IsEncodable.inSpelling {s : String} (h : IsEncodable s) (spelling : Spelling) :
    IsEncodable s spelling := isEncodable_of_document fun _ => h

theorem isEncodable_append {s t : String} {spelling : Spelling} :
    IsEncodable (s ++ t) spelling ↔ IsEncodable s spelling ∧ IsEncodable t spelling := by
  rw [IsEncodable, String.toList_append, List.forall_mem_append]
  rfl

theorem isEncodable_intercalate {sep : String} {ls : List String} {spelling : Spelling}
    (hsep : IsEncodable sep spelling) (h : ∀ l ∈ ls, IsEncodable l spelling) :
    IsEncodable (String.intercalate sep ls) spelling := by
  induction ls with
  | nil => exact fun c hc => nomatch hc
  | cons l ls ih =>
    obtain ⟨hl, hls⟩ := List.forall_mem_cons.1 h
    cases ls with
    | nil => rwa [String.intercalate_singleton]
    | cons l' ls =>
      rw [String.intercalate_cons_cons, isEncodable_append, isEncodable_append]
      exact ⟨⟨hl, hsep⟩, ih hls⟩

theorem isEncodable_unlines_iff {ls : List String} :
    IsEncodable (unlines ls) ↔ ∀ l ∈ ls, IsEncodable l := by
  constructor
  · intro h l hl c hc
    obtain ⟨front, rest, rfl⟩ := List.append_of_mem hl
    refine h c ?_
    rw [unlines_append, String.toList_append, unlines_cons, List.mem_append, List.mem_append]
    exact .inr (.inl hc)
  · intro h c hc
    rcases mem_unlines hc with rfl | ⟨l, hl, hc⟩
    · decide
    · exact h l hl c hc

theorem isEncodable_of_commonBut {s : String} (h : CommonBut [] s) : IsEncodable s := by
  intro c hc
  rcases h c hc with hcommon | ⟨t, ht, -⟩
  · exact hcommon.isSurrogate_eq_false
  · cases ht

theorem isCommon_of_isWordPart {c : Char} (h : isWordPart c = true) : IsCommon c := by
  rw [isWordPart, Bool.or_eq_true, Char.isAlphanum, Bool.or_eq_true, beq_iff_eq] at h
  rcases h with (hletter | hdigit) | rfl
  · rw [isAlpha_iff] at hletter
    unfold IsCommon
    omega
  · obtain ⟨hge, hle⟩ : 48 ≤ c.toNat ∧ c.toNat ≤ 57 := Char.isDigit_iff_toNat.1 hdigit
    unfold IsCommon
    omega
  · decide

theorem isEncodable_of_acceptsWord {s : String} (h : acceptsWord s = true) : IsEncodable s := by
  have hword {w : String} (hw : isWord w.toList = true) : IsEncodable w := fun c hc =>
    (isCommon_of_isWordPart (isWordPart_of_mem hw hc)).isSurrogate_eq_false
  have hend : IsEncodable "\n" := by decide
  rcases acceptsWord_cases h with hs | ⟨w, hw, rfl⟩
  · exact hword hs
  · intro c hc
    rw [String.toList_append, List.mem_append] at hc
    rcases hc with hc | hc
    · exact hword hw c hc
    · exact hend c hc

def loneSurrogate : String := String.ofList [surrogate 0xd800]

namespace Utf8

variable {s : String} {spelling : Spelling}

theorem unencodable?_eq_none_iff {refused isLone : Char → Bool} :
    unencodable? refused isLone s = none ↔ ∀ c ∈ s.toList, refused c = false := by
  have hdrop : s.toList.dropWhile (!refused ·) = [] ↔ ∀ c ∈ s.toList, refused c = false := by
    simp only [List.dropWhile_eq_nil_iff, Bool.not_eq_true']
  rw [← hdrop, unencodable?]
  cases s.toList.dropWhile (!refused ·) <;> simp

theorem encode_of_isEncodable (h : IsEncodable s spelling) : encode s spelling = .ok s.toUTF8 := by
  rw [encode, unencodable?_eq_none_iff.2 h]

theorem encode_error_of_not (h : ¬ IsEncodable s spelling) : ∃ u, encode s spelling = .error u := by
  rw [encode]
  cases hu : unencodable? spelling.isLone spelling.isLone s with
  | none => exact absurd (unencodable?_eq_none_iff.1 hu) h
  | some u => exact ⟨u, rfl⟩

theorem unencodableInPath?_of_isEncodable (h : IsEncodable s spelling) :
    unencodableInPath? s spelling = none :=
  unencodable?_eq_none_iff.2 fun c hc => by rw [h c hc, Bool.false_and]

end Utf8

end FirmataSketch.Text
