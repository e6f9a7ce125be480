import FirmataSketch.Text.Integer
import Mathlib.Algebra.Group.Nat.Defs

/-! Integers are read back from their decimal text, unless they have too many digits. -/

namespace FirmataSketch.Text

theorem mem_digits_of_isDigit {c : Char} (h : c.isDigit = true) : c ∈ "0123456789".toList := by
  obtain ⟨hge, hle⟩ : 48 ≤ c.toNat ∧ c.toNat ≤ 57 := Char.isDigit_iff_toNat.1 h
  have hall : ∀ n, n < 58 → 48 ≤ n → Char.ofNat n ∈ "0123456789".toList := by decide
  rw [← Char.ofNat_toNat c]
  exact hall c.toNat (by omega) hge

theorem mem_digits_of_mem_toDigits {n : Nat} {c : Char} (h : c ∈ Nat.toDigits 10 n) :
    c ∈ "0123456789".toList :=
  mem_digits_of_isDigit (Nat.isDigit_of_mem_toDigits (by decide) (by decide) h)

theorem digit?_digitChar {d : Nat} (h : d < 10) : digit? (Nat.digitChar d) = some d := by
  have hall : ∀ d, d < 10 → digit? (Nat.digitChar d) = some d := by decide
  exact hall d h

theorem moreDigits_cons {value : Char → Option Nat} {d : Char} (h : d ≠ '_') (n : Nat)
    (cs : List Char) :
    moreDigits value n (d :: cs) = (value d).bind fun m => moreDigits value (10 * n + m) cs := by
  rw [moreDigits]
  · rfl
  · exact fun _ _ hd _ => h hd

theorem moreDigits_concat {value : Char → Option Nat} {cs : List Char} (h : '_' ∉ cs) (n : Nat)
    (c : Char) :
    moreDigits value n (cs ++ [c]) =
      (moreDigits value n cs).bind fun m => (value c).map fun d => 10 * m + d := by
  induction cs generalizing n with
  | nil =>
    rw [List.nil_append, moreDigits, moreDigits]
    · cases value c <;> rfl
    · exact fun _ _ _ hnil => nomatch hnil
  | cons d cs ih =>
    have hd : d ≠ '_' := fun e => h (e ▸ List.mem_cons_self)
    have hcs : '_' ∉ cs := fun m => h (List.mem_cons_of_mem d m)
    rw [List.cons_append, moreDigits_cons hd, moreDigits_cons hd, Option.bind_assoc]
    simp only [ih hcs]

theorem natural?_concat {value : Char → Option Nat} {cs : List Char} (hne : cs ≠ [])
    (h : '_' ∉ cs) (c : Char) :
    natural? value (cs ++ [c]) =
      (natural? value cs).bind fun m => (value c).map fun d => 10 * m + d := by
  cases cs with
  | nil => exact absurd rfl hne
  | cons d cs =>
    have hcs : '_' ∉ cs := fun m => h (List.mem_cons_of_mem d m)
    have hcons (cs : List Char) :
        natural? value (d :: cs) = (value d).bind fun m => moreDigits value m cs := rfl
    rw [List.cons_append, hcons, hcons, Option.bind_assoc]
    simp only [moreDigits_concat hcs]

theorem natural?_toDigits (n : Nat) : natural? digit? (Nat.toDigits 10 n) = some n := by
  -- digits come from the right end, but are read from the left: hence the lemmas on the last digit
  induction n using Nat.strongRecOn with
  | ind n ih =>
    rw [Nat.toDigits_eq_if (by decide)]
    split
    next h =>
      have hdigit := digit?_digitChar h
      simp [natural?, moreDigits, hdigit]
    next h =>
      have hword : '_' ∉ Nat.toDigits 10 (n / 10) := fun hmem =>
        absurd (mem_digits_of_mem_toDigits hmem) (by decide)
      rw [natural?_concat Nat.toDigits_ne_nil hword, ih (n / 10) (by omega),
        digit?_digitChar (Nat.mod_lt n (by decide))]
      exact congrArg some (Nat.div_add_mod n 10)

theorem trimBlanks_eq_self {cs : List Char} (h : ∀ c ∈ cs, isBlank c = false) :
    trimBlanks cs = cs := by
  have hdrop {cs : List Char} (h : ∀ c ∈ cs, isBlank c = false) : cs.dropWhile isBlank = cs := by
    cases cs with
    | nil => rfl
    | cons c cs => rw [List.dropWhile_cons, h c List.mem_cons_self]; rfl
  have hreverse : ∀ c ∈ cs.reverse, isBlank c = false := fun c hc => h c (List.mem_reverse.1 hc)
  rw [trimBlanks, hdrop h, hdrop hreverse, List.reverse_reverse]

theorem toList_padded_one (n : Nat) : (padded 1 n).toList = Nat.toDigits 10 n := by
  have hlen : 1 - (Nat.toDigits 10 n).length = 0 :=
    Nat.sub_eq_zero_of_le Nat.length_toDigits_pos
  rw [padded, String.toList_ofList, hlen]
  rfl

theorem toList_decimal (n : Nat) : (decimal n).toList = Nat.toDigits 10 n := toList_padded_one n

theorem decimal_inj {m n : Nat} (h : decimal m = decimal n) : m = n := by
  have hdigits := congrArg (fun s : String => natural? digit? s.toList) h
  rw [toList_decimal, toList_decimal, natural?_toDigits, natural?_toDigits] at hdigits
  exact Option.some.inj hdigits

theorem signed?_toDigits (n : Nat) : signed? digit? (Nat.toDigits 10 n) = some (n : Int) := by
  have hminus : '-' ∉ Nat.toDigits 10 n := fun hmem =>
    absurd (mem_digits_of_mem_toDigits hmem) (by decide)
  have hplus : '+' ∉ Nat.toDigits 10 n := fun hmem =>
    absurd (mem_digits_of_mem_toDigits hmem) (by decide)
  have hnatural := natural?_toDigits n
  rw [signed?, hnatural]
  · rfl
  · exact fun cs hcs => hminus (hcs ▸ List.mem_cons_self)
  · exact fun cs hcs => hplus (hcs ▸ List.mem_cons_self)

/-- The characters of a decimal text: its digits, after a minus sign or not. -/
theorem toList_decimal_cases (n : Int) : (decimal n).toList = Nat.toDigits 10 n.natAbs ∨
    (decimal n).toList = '-' :: Nat.toDigits 10 n.natAbs := by
  cases n with
  | ofNat n => exact .inl (toList_decimal n)
  | negSucc n =>
    refine .inr ?_
    rw [decimal, String.toList_append, toList_padded_one]
    rfl

theorem isBlank_of_mem_decimal {n : Int} {c : Char} (hc : c ∈ (decimal n).toList) :
    isBlank c = false := by
  have hall : ("0123456789".toList.all fun c => isBlank c == false) = true := by decide
  have hdigit (hmem : c ∈ Nat.toDigits 10 n.natAbs) : isBlank c = false :=
    beq_iff_eq.1 (List.all_eq_true.1 hall c (mem_digits_of_mem_toDigits hmem))
  rcases toList_decimal_cases n with h | h
  · exact hdigit (h ▸ hc)
  · rcases List.mem_cons.1 (h ▸ hc) with rfl | hmem
    · decide
    · exact hdigit hmem

theorem digitCount_decimal (n : Int) :
    digitCount digit? (decimal n).toList = (Nat.toDigits 10 n.natAbs).length := by
  have hall : ("0123456789".toList.all fun c => (digit? c).isSome) = true := by decide
  have hdigits : digitCount digit? (Nat.toDigits 10 n.natAbs) = (Nat.toDigits 10 n.natAbs).length :=
    List.countP_eq_length.2 fun c hc => List.all_eq_true.1 hall c (mem_digits_of_mem_toDigits hc)
  rcases toList_decimal_cases n with h | h
  · rw [h, hdigits]
  · have hminus : digit? '-' = none := by decide
    rw [h, digitCount, List.countP_cons, hminus]
    exact hdigits

theorem signed?_decimal (n : Int) : signed? digit? (decimal n).toList = some n := by
  cases n with
  | ofNat n =>
    have htext : (decimal (.ofNat n)).toList = Nat.toDigits 10 n := toList_decimal n
    rw [htext]
    exact signed?_toDigits n
  | negSucc n =>
    have htext : (decimal (.negSucc n)).toList = '-' :: Nat.toDigits 10 (n + 1) := by
      rw [decimal, String.toList_append, toList_padded_one]
      rfl
    rw [htext, signed?, natural?_toDigits]
    rfl

/-- Every integer is read back from its decimal text, unless that has too many digits. -/
theorem integer?_decimal (n : Int) :
    integer? (decimal n) = if n.natAbs < 10 ^ maxDigits then some n else none := by
  have hcount : digitCount digit? (decimal n).toList ≤ maxDigits ↔ n.natAbs < 10 ^ maxDigits := by
    rw [digitCount_decimal]
    exact Nat.length_toDigits_le_iff (by decide) (by decide)
  unfold integer?
  rw [trimBlanks_eq_self fun c => isBlank_of_mem_decimal]
  simp only [signed?_decimal]
  by_cases h : n.natAbs < 10 ^ maxDigits
  · rw [if_pos h]
    exact if_pos (hcount.2 h)
  · rw [if_neg h]
    exact if_neg (mt hcount.1 h)

end FirmataSketch.Text
