import FirmataSketch.Proofs.Text.Integer
import FirmataSketch.Proofs.Text.Lines
import FirmataSketch.Text.Surrogate

/-! Common characters: the printable ones of ASCII. Numbers and the fixed parts of texts are written
with nothing else, so a line end or a surrogate comes from what is put between them. -/

namespace FirmataSketch.Text

def IsCommon (c : Char) : Prop := 32 ≤ c.toNat ∧ c.toNat < 127

instance (c : Char) : Decidable (IsCommon c) := inferInstanceAs (Decidable (_ ∧ _))

theorem IsCommon.ne_lineEnd {c : Char} (h : IsCommon c) : c ≠ '\n' := by
  rintro rfl
  exact absurd h (by decide)

theorem IsCommon.isSurrogate_eq_false {c : Char} (h : IsCommon c) : isSurrogate c = false := by
  have hlt := h.2
  simp only [isSurrogate, Bool.and_eq_false_iff, decide_eq_false_iff_not]
  omega

theorem isCommon_of_all {cs : List Char} (h : (cs.all fun c => decide (IsCommon c)) = true) :
    ∀ c ∈ cs, IsCommon c := fun c hc => of_decide_eq_true (List.all_eq_true.1 h c hc)

/-- All characters of a text that was put together are common, but for those of some parts. -/
def CommonBut (parts : List String) (s : String) : Prop :=
  ∀ c ∈ s.toList, IsCommon c ∨ ∃ t ∈ parts, c ∈ t.toList

theorem CommonBut.of_common {parts : List String} {s : String} (h : ∀ c ∈ s.toList, IsCommon c) :
    CommonBut parts s := fun c hc => .inl (h c hc)

theorem CommonBut.of_all {parts : List String} {s : String}
    (h : (s.toList.all fun c => decide (IsCommon c)) = true) : CommonBut parts s :=
  .of_common (isCommon_of_all h)

theorem CommonBut.of_mem {parts : List String} {s : String} (h : s ∈ parts) : CommonBut parts s :=
  fun _ hc => .inr ⟨s, h, hc⟩

theorem CommonBut.mono {parts parts' : List String} {s : String} (h : CommonBut parts s)
    (hparts : parts ⊆ parts') : CommonBut parts' s :=
  fun c hc => (h c hc).imp_right fun ⟨t, ht, hmem⟩ => ⟨t, hparts ht, hmem⟩

@[simp] theorem commonBut_append {parts : List String} {s t : String} :
    CommonBut parts (s ++ t) ↔ CommonBut parts s ∧ CommonBut parts t := by
  simp [CommonBut, or_imp, forall_and]

theorem CommonBut.isLine {parts : List String} {s : String} (h : CommonBut parts s)
    (hparts : ∀ t ∈ parts, IsLine t) : IsLine s := by
  intro hmem
  rcases h _ hmem with hc | ⟨t, ht, hc⟩
  · exact hc.ne_lineEnd rfl
  · exact hparts t ht hc

theorem isCommon_of_mem_digits {c : Char} (h : c ∈ "0123456789".toList) : IsCommon c :=
  isCommon_of_all (by decide) c h

theorem commonBut_padded (parts : List String) (width n : Nat) :
    CommonBut parts (padded width n) := by
  refine .of_common fun c hc => ?_
  rw [padded, String.toList_ofList, List.mem_append, List.mem_replicate] at hc
  rcases hc with ⟨-, rfl⟩ | hc
  · decide
  · exact isCommon_of_mem_digits (mem_digits_of_mem_toDigits hc)

theorem commonBut_decimal (parts : List String) (n : Int) : CommonBut parts (decimal n) := by
  cases n with
  | ofNat n => exact commonBut_padded parts 1 n
  | negSucc n => exact commonBut_append.2 ⟨.of_all (by decide), commonBut_padded parts 1 (n + 1)⟩

end FirmataSketch.Text
