import FirmataSketch.Failure
import FirmataSketch.Proofs.Text.Encoding

/-! Messages are single lines that can be encoded, unless they show the name of a feature: that one is put
in as it is. All other values are written as literals, which have no line end and no surrogate in them. -/

namespace FirmataSketch

namespace Text

theorem isLine_intercalate {sep : String} {ls : List String} (hsep : IsLine sep)
    (h : ∀ l ∈ ls, IsLine l) : IsLine (String.intercalate sep ls) := by
  induction ls with
  | nil => exact of_decide_eq_true rfl
  | cons l ls ih =>
    have hl := h l List.mem_cons_self
    have hls := ih fun l' hl' => h l' (List.mem_cons_of_mem l hl')
    cases ls with
    | nil => rwa [String.intercalate_singleton]
    | cons l' ls =>
      rw [String.intercalate_cons_cons, isLine_append, isLine_append]
      exact ⟨⟨hl, hsep⟩, hls⟩

/-- No line end and no surrogate is in the text. -/
def IsClean (s : String) : Prop := IsLine s ∧ IsEncodable s

instance (s : String) : Decidable (IsClean s) := inferInstanceAs (Decidable (_ ∧ _))

theorem isClean_of_commonBut_nil {s : String} (h : CommonBut [] s) : IsClean s :=
  ⟨h.isLine fun _ ht => (nomatch ht), isEncodable_of_commonBut h⟩

theorem isClean_decimal (n : Int) : IsClean (decimal n) :=
  isClean_of_commonBut_nil (commonBut_decimal [] n)

theorem isClean_append {s t : String} : IsClean (s ++ t) ↔ IsClean s ∧ IsClean t := by
  rw [IsClean, isLine_append, isEncodable_append]
  exact and_and_and_comm

theorem isClean_intercalate {sep : String} {ls : List String} (hsep : IsClean sep)
    (h : ∀ l ∈ ls, IsClean l) : IsClean (String.intercalate sep ls) :=
  ⟨isLine_intercalate hsep.1 fun l hl => (h l hl).1,
    isEncodable_intercalate hsep.2 fun l hl => (h l hl).2⟩

theorem isCommon_of_mem_hexDigits {width n : Nat} {c : Char} (h : c ∈ hexDigits width n) :
    IsCommon c := by
  induction width generalizing n with
  | zero => cases h
  | succ width ih =>
    have hdigit : ∀ d, d < 16 → IsCommon (hexDigit d) := by decide
    rw [hexDigits, List.mem_append, List.mem_singleton] at h
    rcases h with h | rfl
    · exact ih h
    · exact hdigit (n % 16) (Nat.mod_lt n (by decide))

theorem isCommon_of_mem_escapeCode {n : Nat} {c : Char} (h : c ∈ escapeCode n) : IsCommon c := by
  have hform : ∃ letter, IsCommon letter ∧ ∃ width,
      escapeCode n = '\\' :: letter :: hexDigits width n := by
    unfold escapeCode
    split
    · exact ⟨'x', by decide, 2, rfl⟩
    · split
      · exact ⟨'u', by decide, 4, rfl⟩
      · exact ⟨'U', by decide, 8, rfl⟩
  obtain ⟨letter, hletter, width, hcode⟩ := hform
  rw [hcode, List.mem_cons, List.mem_cons] at h
  rcases h with rfl | rfl | h
  · decide
  · exact hletter
  · exact isCommon_of_mem_hexDigits h

/-- A character that is no common one is escaped, or it is shown as it is. -/
theorem mem_escape {mark c x : Char} (hmark : IsCommon mark) (h : x ∈ escape mark c) :
    IsCommon x ∨ x = c ∧ c ≠ '\n' ∧ isSurrogate c = false := by
  have hall {cs : List Char} (hcs : (cs.all fun c => decide (IsCommon c)) = true) (hx : x ∈ cs) :
      IsCommon x := isCommon_of_all hcs x hx
  unfold escape at h
  split at h
  next hc =>
    have hcommon : IsCommon c := by
      rcases hc with rfl | rfl
      · exact hmark
      · decide
    rw [List.mem_cons, List.mem_singleton] at h
    rcases h with rfl | rfl
    · exact .inl (by decide)
    · exact .inl hcommon
  next =>
    split at h
    · exact .inl (hall (by decide) h)
    next hline =>
      split at h
      · exact .inl (hall (by decide) h)
      · split at h
        · exact .inl (hall (by decide) h)
        · split at h
          · exact .inl (isCommon_of_mem_escapeCode h)
          next hsurrogate =>
            split at h
            · exact .inr ⟨List.mem_singleton.1 h, hline, eq_false_of_ne_true hsurrogate⟩
            · exact .inl (isCommon_of_mem_escapeCode h)

theorem isClean_quoted (s : String) : IsClean (quoted s) := by
  have hmark : IsCommon (quoteMark s.toList) := by
    unfold quoteMark
    split <;> decide
  have hclean : ∀ x ∈ (quoted s).toList, x ≠ '\n' ∧ isSurrogate x = false := by
    intro x h
    have hx : IsCommon x ∨ x ≠ '\n' ∧ isSurrogate x = false := by
      rw [quoted, String.toList_ofList, List.cons_append, List.mem_cons, List.mem_append,
        List.mem_flatMap, List.mem_singleton] at h
      rcases h with rfl | ⟨c, -, h⟩ | rfl
      · exact .inl hmark
      · exact (mem_escape hmark h).imp_right fun ⟨hsame, hc⟩ => hsame ▸ hc
      · exact .inl hmark
    exact hx.elim (fun hcommon => ⟨hcommon.ne_lineEnd, hcommon.isSurrogate_eq_false⟩) id
  exact ⟨fun h => (hclean _ h).1 rfl, fun x hx => (hclean x hx).2⟩

end Text

open Text (IsLine IsClean IsCommon commonBut_padded)

namespace Number

variable {ds : List Char}

theorem common_writtenOut (h : ∀ c ∈ ds, IsCommon c) (point : Int) :
    ∀ c ∈ writtenOut ds point, IsCommon c := by
  have hzeros (n : Nat) : ∀ c ∈ List.replicate n '0', IsCommon c := by
    intro c hc
    rw [(List.mem_replicate.1 hc).2]
    decide
  unfold writtenOut
  dsimp only
  split
  · rw [List.forall_mem_append, List.forall_mem_cons, List.forall_mem_cons]
    exact ⟨⟨by decide, by decide, hzeros _⟩, h⟩
  · split
    · rw [List.forall_mem_append, List.forall_mem_append]
      exact ⟨⟨h, hzeros _⟩, Text.isCommon_of_all (by decide)⟩
    · rw [List.forall_mem_append, List.forall_mem_cons]
      exact ⟨fun c hc => h c (List.mem_of_mem_take hc), by decide,
        fun c hc => h c (List.mem_of_mem_drop hc)⟩

theorem common_scientific (h : ∀ c ∈ ds, IsCommon c) (width : Nat) (exponent : Int) :
    ∀ c ∈ scientific width ds exponent, IsCommon c := by
  have hpadded : ∀ c ∈ (Text.padded width exponent.natAbs).toList, IsCommon c := fun c hc =>
    (commonBut_padded [] width exponent.natAbs c hc).resolve_right fun ⟨t, ht, _⟩ => nomatch ht
  have htail : ∀ c ∈ (if ds.length ≤ 1 then [] else '.' :: ds.drop 1), IsCommon c := by
    split
    · exact fun c hc => nomatch hc
    · rw [List.forall_mem_cons]
      exact ⟨by decide, fun c hc => h c (List.mem_of_mem_drop hc)⟩
  have hsign : IsCommon (if exponent < 0 then '-' else '+') := by
    split <;> decide
  unfold scientific
  dsimp only
  rw [List.forall_mem_append, List.forall_mem_append, List.forall_mem_cons, List.forall_mem_cons]
  exact ⟨⟨fun c hc => h c (List.mem_of_mem_take hc), htail⟩, by decide, hsign, hpadded⟩

theorem common_digits (l : Layout) (d : Decimal) : ∀ c ∈ l.digits d, IsCommon c := by
  have hdigits : ∀ c ∈ Nat.toDigits 10 d.digits, IsCommon c := fun c hc =>
    Text.isCommon_of_mem_digits (Text.mem_digits_of_mem_toDigits hc)
  unfold Layout.digits
  dsimp only
  split
  · exact common_writtenOut hdigits _
  · exact common_scientific hdigits _ _

theorem Binary64.isClean_text (x : Binary64) : IsClean x.text := by
  have hsize (m : Nat) (e : Int) :
      ∀ c ∈ (if m = 0 then ['0', '.', '0'] else Layout.plain.digits (shortest m e)), IsCommon c := by
    split
    · exact Text.isCommon_of_all (by decide)
    · exact common_digits _ _
  refine Text.isClean_of_commonBut_nil (.of_common ?_)
  cases x with
  | nan => exact Text.isCommon_of_all (by decide)
  | infinite negative => cases negative <;> exact Text.isCommon_of_all (by decide)
  | finite negative m e =>
    rw [Binary64.text, String.toList_ofList]
    split
    · rw [List.forall_mem_cons]
      exact ⟨by decide, hsize m e⟩
    · exact hsize m e

end Number

namespace Value

mutual

/-- Nothing but a plain line is a literal, whatever lies in it. -/
theorem isClean_literal : ∀ v : Value, IsClean v.literal
  | .null => by decide
  | .bool b => by cases b <;> decide
  | .int n => Text.isClean_decimal n
  | .real x => x.isClean_text
  | .text s => Text.isClean_quoted s
  | .list items => by
    have hitems := Text.isClean_intercalate (by decide : IsClean ", ") (isClean_literals items)
    rw [literal, Text.isClean_append, Text.isClean_append]
    exact ⟨⟨by decide, hitems⟩, by decide⟩
  | .record fields => by
    have hfields := Text.isClean_intercalate (by decide : IsClean ", ") (isClean_fieldLiterals fields)
    rw [literal, Text.isClean_append, Text.isClean_append]
    exact ⟨⟨by decide, hfields⟩, by decide⟩

theorem isClean_literals : ∀ vs : List Value, ∀ l ∈ literals vs, IsClean l
  | [], _, h => nomatch h
  | v :: vs, l, h => by
    rw [literals, List.mem_cons] at h
    rcases h with rfl | h
    · exact isClean_literal v
    · exact isClean_literals vs l h

theorem isClean_fieldLiterals : ∀ fs : List (String × Value), ∀ l ∈ fieldLiterals fs, IsClean l
  | [], _, h => nomatch h
  | (name, v) :: fs, l, h => by
    rw [fieldLiterals, List.mem_cons] at h
    rcases h with rfl | h
    · rw [Text.isClean_append, Text.isClean_append]
      exact ⟨⟨Text.isClean_quoted name, by decide⟩, isClean_literal v⟩
    · exact isClean_fieldLiterals fs l h

end

end Value

theorem Json.Fault.isLine_message (f : Json.Fault) : IsLine f.message := by
  have hreason : IsLine f.reason.message := by
    cases f.reason <;> decide
  simp only [Json.Fault.message, Text.isLine_append, hreason, (Text.isClean_decimal _).1, true_and,
    and_true]
  decide

theorem Disk.Refusal.isLine_report (r : Disk.Refusal) (path : String) : IsLine (r.report path) := by
  have hmessage : IsLine r.message := by
    cases r <;> decide
  simp only [Disk.Refusal.report, Text.isLine_append, hmessage, (Text.isClean_decimal _).1,
    (Text.isClean_quoted _).1, and_true]
  decide

theorem Selection.Fault.isClean_message (f : Selection.Fault) : IsClean f.message := by
  have hfields : ∀ name ∈ ["selection", "connectionType", "connectionType.serial",
      "selectedFeatures", "filename", "baud"], IsClean name := by decide
  have hfield : IsClean f.field := hfields _ (by cases f <;> simp [Selection.Fault.field])
  have hdetail : IsClean f.detail := by
    cases f with
    | badFilename v =>
      rw [Selection.Fault.detail, Text.isClean_append]
      exact ⟨v.isClean_literal, by decide⟩
    | badBaud v =>
      rw [Selection.Fault.detail, Text.isClean_append]
      exact ⟨v.isClean_literal, by decide⟩
    | unsupportedBaud n =>
      rw [Selection.Fault.detail, Text.isClean_append, Text.isClean_append]
      exact ⟨⟨Text.isClean_decimal n, by decide⟩, Value.isClean_literal _⟩
    | _ => decide
  rw [Selection.Fault.message, Text.isClean_append, Text.isClean_append]
  exact ⟨⟨hfield, by decide⟩, hdetail⟩

theorem Selection.Fault.isLine_message (f : Selection.Fault) : IsLine f.message :=
  f.isClean_message.1

end FirmataSketch
