import Switchboard.Wire.Json.Printer
import Switchboard.Wire.Json.Reader

/-!
# Numbers and Strings in JSON

What is written as a number or as a string is read as the same number or
string, whatever text follows it.

A string ends with its quote, so any text may follow. A number ends where the
text stops to look like one, so the law about numbers needs a text that does:
`EndsNumber` says that it begins neither with a digit nor with what may follow
the digits of a number. Everything that stands after a number inside an array
or an object is of that kind, and so is the end of the text.

A whole number is read as one only if it fits a word of 64 bits, with a sign or
without. The reader collects the digits into an unsigned word, and what matters
is that no digit of such a number is left over.

## Main definitions

* `EndsNumber`: Texts that do not go on with a number.
* `Wide`: Whole numbers of 64 bits.

## Theorems

* `accumulate_eq`: No digit of a number that fits is left over.
* `readNumber?_printInteger`: A whole number is read off the front of a text.
* `readString?_flatMap_escape`: So is a string.
* `stringNode_units`, `keyNode_units`: The tree of a string that was written.
-/

namespace Switchboard.Wire.Json

/-! ## Digits -/

theorem digits_foldl (cs : List Char) (start : Nat) :
    (cs.map digitValue).foldl (fun n d => n * 10 + d) start = Nat.ofDigitChars 10 cs start := by
  rw [Nat.ofDigitChars_eq_foldl, List.foldl_map]
  congr 1
  funext n c
  rw [Nat.mul_comm]
  rfl

theorem le_digits_foldl (digits : List Nat) (start : Nat) :
    start ≤ digits.foldl (fun n d => n * 10 + d) start := by
  induction digits generalizing start with
  | nil => exact Nat.le_refl start
  | cons digit rest ih =>
      have hrest := ih (start * 10 + digit)
      rw [List.foldl_cons]
      omega

/-- No digit of a number that fits a word is left over. -/
theorem accumulate_eq {digits : List Nat} {start : Nat}
    (h : digits.foldl (fun n d => n * 10 + d) start ≤ DecimalLiteral.greatestSignificand) :
    DecimalLiteral.accumulate start digits =
      (digits.foldl (fun n d => n * 10 + d) start, 0) := by
  induction digits generalizing start with
  | nil => rfl
  | cons digit rest ih =>
      rw [List.foldl_cons] at h
      have hfits := Nat.le_trans (le_digits_foldl rest (start * 10 + digit)) h
      rw [DecimalLiteral.accumulate, if_pos hfits, ih h, List.foldl_cons]

/-- The digits of a number other than zero do not begin with zero. -/
theorem head?_toDigits {n : Nat} (h : 0 < n) :
    ∃ c, (Nat.toDigits 10 n).head? = some c ∧ digitValue c ≠ 0 := by
  induction n using Nat.strongRecOn with
  | ind n ih =>
      by_cases hsmall : n < 10
      · refine ⟨n.digitChar, ?_, ?_⟩
        · rw [Nat.toDigits_of_lt_base hsmall]
          rfl
        · have hall : ∀ d, d < 10 → 0 < d → digitValue d.digitChar ≠ 0 := by decide
          exact hall n hsmall h
      · -- The other digits are those of a tenth of the number.
        rcases ih (n / 10) (by omega) (by omega) with ⟨c, hhead, hc⟩
        refine ⟨c, ?_, hc⟩
        rw [Nat.toDigits_of_base_le (by decide) (by omega), List.head?_append, hhead]
        rfl

/-! ## Numbers -/

/-- Texts that do not go on with a number. -/
def EndsNumber (rest : List Char) : Prop :=
  ∀ c ∈ rest.head?, c.isDigit = false ∧ c ≠ '.' ∧ c ≠ 'e' ∧ c ≠ 'E'

theorem endsNumber_nil : EndsNumber [] := fun _ h => nomatch h

theorem endsNumber_cons {c : Char} (rest : List Char)
    (h : c.isDigit = false ∧ c ≠ '.' ∧ c ≠ 'e' ∧ c ≠ 'E') : EndsNumber (c :: rest) := by
  intro first hfirst
  rw [List.head?_cons, Option.mem_some_iff] at hfirst
  exact hfirst ▸ h

variable {rest : List Char}

theorem readDigits_toDigits (n : Nat) (h : EndsNumber rest) :
    readDigits (Nat.toDigits 10 n ++ rest) = ((Nat.toDigits 10 n).map digitValue, rest) := by
  have hdigits : ∀ c ∈ Nat.toDigits 10 n, c.isDigit = true :=
    fun c hc => Nat.isDigit_of_mem_toDigits (by decide) (by decide) hc
  have hend : rest.takeWhile Char.isDigit = [] ∧ rest.dropWhile Char.isDigit = rest := by
    cases rest with
    | nil => exact ⟨rfl, rfl⟩
    | cons c cs =>
        have hc : ¬c.isDigit = true := Bool.not_eq_true _ ▸ (h c rfl).1
        exact ⟨List.takeWhile_cons_of_neg hc, List.dropWhile_cons_of_neg hc⟩
  rw [readDigits, List.takeWhile_append_of_pos hdigits, List.dropWhile_append_of_pos hdigits,
    hend.1, hend.2, List.append_nil]

theorem readWhole?_toDigits (n : Nat) (h : EndsNumber rest) :
    readWhole? (Nat.toDigits 10 n ++ rest) = some ((Nat.toDigits 10 n).map digitValue, rest) := by
  rw [readWhole?, readDigits1?, readDigits_toDigits n h]
  by_cases hzero : n = 0
  · rw [hzero, Nat.toDigits_zero]
    rfl
  · rcases head?_toDigits (Nat.pos_of_ne_zero hzero) with ⟨c, hhead, hc⟩
    rcases List.head?_eq_some_iff.mp hhead with ⟨others, hdigits⟩
    rw [hdigits, List.map_cons]
    cases hvalue : digitValue c with
    | zero => exact absurd hvalue hc
    | succ value => rfl

theorem readFraction?_eq (h : EndsNumber rest) : readFraction? rest = some (none, rest) := by
  cases rest with
  | nil => rfl
  | cons c cs =>
      unfold readFraction?
      split
      · next heq => exact absurd (List.cons.inj heq).1 (h c rfl).2.1
      · rfl

theorem readExponent?_eq (h : EndsNumber rest) : readExponent? rest = some (none, rest) := by
  cases rest with
  | nil => rfl
  | cons c cs =>
      have hc : ¬(c = 'e' ∨ c = 'E') := fun heq => heq.elim (h c rfl).2.2.1 (h c rfl).2.2.2
      rw [readExponent?, if_neg hc]

/-- What is written of a whole number is read as its sign and its digits. -/
theorem readNumber?_printInteger (n : Int) (h : EndsNumber rest) :
    readNumber? (printInteger n ++ rest) =
      some (⟨decide (n < 0), (Nat.toDigits 10 n.natAbs).map digitValue, none, none⟩, rest) := by
  by_cases hn : n < 0
  · rw [printInteger, if_pos hn, List.singleton_append, List.cons_append, readNumber?]
    simp only [readWhole?_toDigits n.natAbs h, readFraction?_eq h, readExponent?_eq h,
      Option.bind_eq_bind, Option.bind_some, Option.pure_def, decide_eq_true hn]
  · -- Without a sign the first character is a digit.
    have hsign : ∀ cs, Nat.toDigits 10 n.natAbs ++ rest ≠ '-' :: cs := by
      intro cs heq
      rcases List.exists_cons_of_ne_nil (Nat.toDigits_ne_nil (n := n.natAbs) (b := 10)) with
        ⟨c, others, hdigits⟩
      have hc : c.isDigit = true :=
        Nat.isDigit_of_mem_toDigits (by decide) (by decide) (hdigits ▸ List.mem_cons_self)
      rw [hdigits, List.cons_append, List.cons.injEq] at heq
      rw [heq.1] at hc
      exact absurd hc (by decide)
    rw [printInteger, if_neg hn, List.nil_append, readNumber?]
    · simp only [readWhole?_toDigits n.natAbs h, readFraction?_eq h, readExponent?_eq h,
        Option.bind_eq_bind, Option.bind_some, Option.pure_def, decide_eq_false hn]
    · exact hsign

/-- Whole numbers of 64 bits, with a sign or without. -/
def Wide (n : Int) : Prop := -0x8000000000000000 ≤ n ∧ n < 0x10000000000000000

theorem wide_natCast {n : Nat} (h : n < 0x10000000000000000) : Wide n := by
  unfold Wide
  omega

/-- The tree of a whole number that was written. -/
theorem numberNode_digits {n : Int} (h : Wide n) :
    numberNode ⟨decide (n < 0), (Nat.toDigits 10 n.natAbs).map digitValue, none, none⟩ =
      .integer n := by
  have hvalue : DecimalLiteral.accumulate 0 ((Nat.toDigits 10 n.natAbs).map digitValue) =
      (n.natAbs, 0) := by
    have hfoldl := digits_foldl (Nat.toDigits 10 n.natAbs) 0
    rw [Nat.ofDigitChars_ten_toDigits] at hfoldl
    have hfits : n.natAbs ≤ DecimalLiteral.greatestSignificand := by
      unfold Wide at h
      unfold DecimalLiteral.greatestSignificand
      omega
    rw [← hfoldl] at hfits
    rw [accumulate_eq hfits, hfoldl]
  unfold numberNode DecimalLiteral.read
  simp only [hvalue]
  unfold Wide at h
  by_cases hn : n < 0
  · have hbounds : 0 < n.natAbs ∧ n.natAbs ≤ 9223372036854775808 := by omega
    have hneg : -(n.natAbs : Int) = n := by omega
    simp only [decide_eq_true hn, Bool.not_true, Bool.false_eq_true, if_false, if_pos hbounds, hneg]
  · have hnat : (n.natAbs : Int) = n := by omega
    simp only [decide_eq_false hn, Bool.not_false, if_true, hnat]

/-! ## Strings -/

theorem hexValue?_hexDigit : ∀ n, n < 16 → hexValue? (hexDigit n) = some n := by decide

/-- A character is read as its code point, whether it is escaped or not. -/
theorem readString?_escape (c : Char) (rest : List Char) :
    readString? (escape c ++ rest) = (readString? rest).map fun found =>
      (⟨c.toNat :: found.1.units, found.1.hasControl⟩, found.2) := by
  -- The escapes by letter are told apart by their letters.
  have hletter : ∀ (letter : Char) (cs : List Char), letter ≠ 'u' →
      readString? ('\\' :: letter :: cs) = (unescape? letter).bind fun unit =>
        (readString? cs).map fun found => (found.1.escaped unit, found.2) := by
    intro letter cs hne
    rw [readString?.eq_4 letter cs fun _ _ _ _ _ heq _ => hne heq]
    cases unescape? letter with
    | none => rfl
    | some unit => cases readString? cs <;> rfl
  by_cases hquote : c = '"'
  · subst hquote
    exact hletter '"' rest (by decide)
  by_cases hslash : c = '\\'
  · subst hslash
    exact hletter '\\' rest (by decide)
  by_cases hline : c = '\n'
  · subst hline
    exact hletter 'n' rest (by decide)
  by_cases hreturn : c = '\r'
  · subst hreturn
    exact hletter 'r' rest (by decide)
  by_cases htab : c = '\t'
  · subst htab
    exact hletter 't' rest (by decide)
  unfold escape
  rw [if_neg hquote, if_neg hslash, if_neg hline, if_neg hreturn, if_neg htab]
  by_cases hback : c.toNat = 8
  · rw [if_pos hback, hback]
    exact hletter 'b' rest (by decide)
  by_cases hfeed : c.toNat = 12
  · rw [if_neg hback, if_pos hfeed, hfeed]
    exact hletter 'f' rest (by decide)
  rw [if_neg hback, if_neg hfeed]
  by_cases hcontrol : c.toNat < 32
  · have hhigh := hexValue?_hexDigit (c.toNat / 16) (by omega)
    have hlow := hexValue?_hexDigit (c.toNat % 16) (by omega)
    have hzero : hexValue? '0' = some 0 := rfl
    have hvalue : ((0 * 16 + 0) * 16 + c.toNat / 16) * 16 + c.toNat % 16 = c.toNat := by omega
    rw [if_pos hcontrol]
    simp only [List.cons_append, List.nil_append, readString?.eq_3, hzero, hhigh, hlow,
      Option.bind_eq_bind, Option.bind_some, hvalue]
    cases readString? rest <;> rfl
  · have hplain : (c.toNat < 32 : Bool) = false := decide_eq_false hcontrol
    rw [if_neg hcontrol, List.singleton_append,
      readString?.eq_5 c rest hquote (fun _ _ _ _ _ h _ => hslash h) (fun _ _ h _ => hslash h),
      if_neg hslash]
    cases readString? rest with
    | none => rfl
    | some found =>
        simp only [StringBody.literal, hplain, Bool.false_or, Option.bind_eq_bind,
          Option.bind_some, Option.pure_def, Option.map_some]

/-- The characters of a string are read up to its closing quote. -/
theorem readString?_flatMap_escape (cs rest : List Char) :
    readString? (cs.flatMap escape ++ '"' :: rest) = some (⟨cs.map Char.toNat, false⟩, rest) := by
  induction cs with
  | nil => rfl
  | cons c cs ih =>
      rw [List.flatMap_cons, List.append_assoc, readString?_escape, ih, Option.map_some,
        List.map_cons]

/-- A character is no half of a surrogate pair. -/
theorem not_surrogate (c : Char) :
    isHighSurrogate c.toNat = false ∧ isLowSurrogate c.toNat = false := by
  have hvalid : c.toNat < 0xD800 ∨ 0xDFFF < c.toNat ∧ c.toNat < 0x110000 := c.valid
  unfold isHighSurrogate isLowSurrogate
  simp only [Bool.and_eq_false_iff, decide_eq_false_iff_not]
  omega

theorem joinPairs_chars (cs : List Char) : joinPairs (cs.map Char.toNat) = cs.map Char.toNat := by
  induction cs with
  | nil => rfl
  | cons c cs ih =>
      cases cs with
      | nil => rfl
      | cons next others =>
          rw [List.map_cons] at ih
          rw [List.map_cons, List.map_cons, joinPairs, (not_surrogate c).1, ih]
          rfl

theorem stringNode_units (s : String) :
    stringNode ⟨s.toList.map Char.toNat, false⟩ = .text s := by
  have hnone : (s.toList.map Char.toNat).any
      (fun unit => isHighSurrogate unit || isLowSurrogate unit) = false := by
    rw [List.any_eq_false]
    intro unit hunit
    rcases List.mem_map.mp hunit with ⟨c, _, rfl⟩
    rw [(not_surrogate c).1, (not_surrogate c).2]
    exact Bool.false_ne_true
  have hchars : (s.toList.map Char.toNat).map Char.ofNat = s.toList := by
    rw [List.map_map]
    exact List.map_id'' Char.ofNat_toNat _
  unfold stringNode
  simp only [joinPairs_chars, hnone, hchars, Bool.false_eq_true, if_false, String.ofList_toList]

theorem keyNode_units (s : String) : keyNode ⟨s.toList.map Char.toNat, false⟩ = .text s := by
  rw [keyNode, stringNode_units]

end Switchboard.Wire.Json
