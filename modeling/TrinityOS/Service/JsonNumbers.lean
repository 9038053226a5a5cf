import TrinityOS.Service.JsonText
import Mathlib.Algebra.Ring.Nat
import Mathlib.Data.List.TakeWhile
import Mathlib.Data.List.Induction

namespace TrinityOS.Service

def Delimited (rest : List Char) : Prop := ∀ c ∈ rest.head?, c ∈ [',', ']', '}', ' ', '\t', '\n', '\r']

structure Numeral where
  whole : List Char
  fraction : List Char
  negativeExponent : Bool
  exponent : List Char
  whole_ne_nil : whole ≠ []
  whole_digits : ∀ c ∈ whole, c.isDigit
  whole_zero : whole.head? = some '0' → whole = ['0']
  fraction_digits : ∀ c ∈ fraction, c.isDigit
  exponent_digits : ∀ c ∈ exponent, c.isDigit

namespace Numeral

def fractionText (n : Numeral) : List Char := if n.fraction = [] then [] else '.' :: n.fraction

def exponentText (n : Numeral) : List Char :=
  if n.exponent = [] then [] else 'e' :: (if n.negativeExponent then '-' else '+') :: n.exponent

def text (n : Numeral) : List Char := n.whole ++ (n.fractionText ++ n.exponentText)

def number (digits : List Char) : ℕ := ofDigits (digits.map fun c => c.toNat - 48)

def value (n : Numeral) (negative : Bool) : Except PyError Value :=
  if n.fraction = [] ∧ n.exponent = [] then
    if n.whole.length ≤ intMaxStrDigits then
      .ok (.int (if negative then -(number n.whole : ℤ) else number n.whole))
    else .error (.valueError "Exceeds the limit for integer string conversion")
  else
    let scale : ℤ :=
      (if n.negativeExponent then -(number n.exponent : ℤ) else number n.exponent) - n.fraction.length
    let x := Float.ofScientific (number (n.whole ++ n.fraction)) (scale < 0) scale.natAbs
    .ok (.float (if negative then -x else x))

end Numeral

def wholeOf (s : List Char) : List Char :=
  match s with
  | '0' :: _ => ['0']
  | _ => s.takeWhile Char.isDigit

def fractionOf (s : List Char) : List Char :=
  match s with
  | '.' :: s => s.takeWhile Char.isDigit
  | _ => []

def exponentOf (s : List Char) : Bool × Option (List Char) :=
  match s with
  | 'e' :: '-' :: rest | 'E' :: '-' :: rest => (true, some rest)
  | 'e' :: '+' :: rest | 'E' :: '+' :: rest => (false, some rest)
  | 'e' :: rest | 'E' :: rest => (false, some rest)
  | _ => (false, none)

theorem wholeOf_digits (s : List Char) : ∀ c ∈ wholeOf s, c.isDigit := by
  unfold wholeOf
  split
  · simp
  · exact fun c hc => List.mem_takeWhile_imp hc

theorem wholeOf_zero {s : List Char} (h : (wholeOf s).head? = some '0') : wholeOf s = ['0'] := by
  unfold wholeOf at h ⊢
  split at h
  · rfl
  · next hne =>
    rw [List.head?_takeWhile] at h
    obtain ⟨tail, rfl⟩ := List.head?_eq_some_iff.mp (Option.filter_eq_some_iff.mp h).1
    exact absurd rfl (hne tail)

theorem fractionOf_digits (s : List Char) : ∀ c ∈ fractionOf s, c.isDigit := by
  unfold fractionOf
  split
  · exact fun c hc => List.mem_takeWhile_imp hc
  · simp

def numeralOf (s : List Char) (h : wholeOf s ≠ []) : Numeral :=
  let rest := s.drop (wholeOf s).length
  let fraction := fractionOf rest
  let rest := if fraction = [] then rest else rest.drop (fraction.length + 1)
  { whole := wholeOf s
    fraction := fraction
    negativeExponent := (exponentOf rest).1
    exponent := ((exponentOf rest).2.getD []).takeWhile Char.isDigit
    whole_ne_nil := h
    whole_digits := wholeOf_digits s
    whole_zero := wholeOf_zero
    fraction_digits := fractionOf_digits _
    exponent_digits := fun _ hc => List.mem_takeWhile_imp hc }

def numeralRest (s : List Char) : List Char :=
  let rest := s.drop (wholeOf s).length
  let fraction := fractionOf rest
  let rest := if fraction = [] then rest else rest.drop (fraction.length + 1)
  let exponent := ((exponentOf rest).2.getD []).takeWhile Char.isDigit
  if exponent = [] then rest else ((exponentOf rest).2.getD []).drop exponent.length

theorem scanNumber_eq (negative : Bool) (s : List Char) : scanNumber negative s =
    if h : wholeOf s = [] then .error (.valueError "Expecting value")
    else ((numeralOf s h).value negative).map (·, numeralRest s) := by
  by_cases h : wholeOf s = []
  · rw [dif_pos h]
    exact if_pos h
  · rw [dif_neg h, Numeral.value]
    refine (if_neg h).trans ?_
    by_cases hint : (numeralOf s h).fraction = [] ∧ (numeralOf s h).exponent = []
    · rw [if_pos hint]
      refine (if_pos hint).trans ?_
      by_cases hlength : (numeralOf s h).whole.length ≤ intMaxStrDigits
      · rw [if_pos hlength]
        exact if_pos hlength
      · rw [if_neg hlength]
        exact if_neg hlength
    · rw [if_neg hint]
      exact if_neg hint

section text

variable {n : Numeral} {rest : List Char}

theorem takeWhile_digits {digits : List Char} (hdigits : ∀ c ∈ digits, c.isDigit)
    (h : ∀ c ∈ rest.head?, ¬c.isDigit) : (digits ++ rest).takeWhile Char.isDigit = digits := by
  rw [List.takeWhile_append_of_pos hdigits]
  cases rest with
  | nil => rw [List.takeWhile_nil, List.append_nil]
  | cons c rest => rw [List.takeWhile_cons_of_neg (h c rfl), List.append_nil]

theorem wholeOf_append (h : ∀ c ∈ rest.head?, ¬c.isDigit) : wholeOf (n.whole ++ rest) = n.whole := by
  obtain ⟨c, digits, hwhole⟩ := List.exists_cons_of_ne_nil n.whole_ne_nil
  by_cases hc : c = '0'
  · rw [n.whole_zero (by rw [hwhole, hc]; rfl)]
    rfl
  · unfold wholeOf
    split
    · next heq =>
      rw [hwhole] at heq
      exact absurd (List.cons.inj heq).1 hc
    · exact takeWhile_digits n.whole_digits h

theorem Delimited.not_digit (h : Delimited rest) : ∀ c ∈ rest.head?, ¬c.isDigit := by
  intro c hc
  have hall : [',', ']', '}', ' ', '\t', '\n', '\r'].all fun c => ¬c.isDigit := by decide
  exact of_decide_eq_true (List.all_eq_true.mp hall c (h c hc))

theorem Delimited.exponentOf (h : Delimited rest) : exponentOf rest = (false, none) := by
  cases rest with
  | nil => rfl
  | cons c rest =>
    have hc := h c rfl
    simp only [List.mem_cons, List.not_mem_nil, or_false] at hc
    rcases hc with rfl | rfl | rfl | rfl | rfl | rfl | rfl <;> rfl

theorem Delimited.fractionOf (h : Delimited rest) : fractionOf rest = [] := by
  cases rest with
  | nil => rfl
  | cons c rest =>
    have hc := h c rfl
    simp only [List.mem_cons, List.not_mem_nil, or_false] at hc
    rcases hc with rfl | rfl | rfl | rfl | rfl | rfl | rfl <;> rfl

theorem not_digit_exponentText (h : Delimited rest) : ∀ c ∈ (n.exponentText ++ rest).head?, ¬c.isDigit := by
  by_cases hexponent : n.exponent = []
  · rw [Numeral.exponentText, if_pos hexponent]
    exact h.not_digit
  · rw [Numeral.exponentText, if_neg hexponent]
    rintro c ⟨⟩
    decide

theorem not_digit_fractionText (h : Delimited rest) :
    ∀ c ∈ (n.fractionText ++ (n.exponentText ++ rest)).head?, ¬c.isDigit := by
  unfold Numeral.fractionText
  split_ifs
  · exact not_digit_exponentText h
  · rintro c ⟨⟩
    decide

theorem exponentOf_exponentText (hexponent : n.exponent ≠ []) :
    exponentOf (n.exponentText ++ rest) = (n.negativeExponent, some (n.exponent ++ rest)) := by
  rw [Numeral.exponentText, if_neg hexponent]
  cases n.negativeExponent <;> rfl

theorem fractionOf_fractionText (h : Delimited rest) :
    fractionOf (n.fractionText ++ (n.exponentText ++ rest)) = n.fraction := by
  by_cases hfraction : n.fraction = []
  · rw [Numeral.fractionText, if_pos hfraction, List.nil_append, hfraction]
    by_cases hexponent : n.exponent = []
    · rw [Numeral.exponentText, if_pos hexponent]
      exact h.fractionOf
    · rw [Numeral.exponentText, if_neg hexponent]
      rfl
  · rw [Numeral.fractionText, if_neg hfraction]
    exact takeWhile_digits n.fraction_digits (not_digit_exponentText h)

theorem wholeOf_text (h : Delimited rest) : wholeOf (n.text ++ rest) = n.whole := by
  rw [Numeral.text, List.append_assoc, List.append_assoc]
  exact wholeOf_append (not_digit_fractionText h)

theorem drop_whole (n : Numeral) (rest : List Char) :
    (n.text ++ rest).drop n.whole.length = n.fractionText ++ (n.exponentText ++ rest) := by
  rw [Numeral.text, List.append_assoc, List.append_assoc, List.drop_left]

theorem drop_fraction (n : Numeral) (rest : List Char) :
    (if n.fraction = [] then n.fractionText ++ (n.exponentText ++ rest)
      else (n.fractionText ++ (n.exponentText ++ rest)).drop (n.fraction.length + 1)) = n.exponentText ++ rest := by
  split_ifs with hfraction
  · rw [Numeral.fractionText, if_pos hfraction, List.nil_append]
  · rw [Numeral.fractionText, if_neg hfraction, List.cons_append, List.drop_succ_cons, List.drop_left]

theorem digits_exponent (h : Delimited rest) :
    ((exponentOf (n.exponentText ++ rest)).2.getD []).takeWhile Char.isDigit = n.exponent := by
  by_cases hexponent : n.exponent = []
  · rw [Numeral.exponentText, if_pos hexponent, List.nil_append, h.exponentOf, hexponent]
    rfl
  · rw [exponentOf_exponentText hexponent]
    exact takeWhile_digits n.exponent_digits h.not_digit

theorem numeralRest_text (h : Delimited rest) : numeralRest (n.text ++ rest) = rest := by
  simp only [numeralRest]
  rw [wholeOf_text h, drop_whole, fractionOf_fractionText h, drop_fraction, digits_exponent h]
  split_ifs with hexponent
  · rw [Numeral.exponentText, if_pos hexponent, List.nil_append]
  · rw [exponentOf_exponentText hexponent]
    exact List.drop_left

theorem Numeral.value_congr {m n : Numeral} (hwhole : m.whole = n.whole) (hfraction : m.fraction = n.fraction)
    (hexponent : m.exponent = n.exponent) (hsign : n.exponent ≠ [] → m.negativeExponent = n.negativeExponent) :
    m.value = n.value := by
  funext negative
  unfold Numeral.value
  rw [hwhole, hfraction, hexponent]
  by_cases h : n.exponent = []
  · rw [h]
    cases m.negativeExponent <;> cases n.negativeExponent <;> rfl
  · rw [hsign h]

theorem scanNumber_text (h : Delimited rest) {negative : Bool} {v : Value} (hv : n.value negative = .ok v) :
    scanNumber negative (n.text ++ rest) = .ok (v, rest) := by
  have hne : wholeOf (n.text ++ rest) ≠ [] := by
    rw [wholeOf_text h]
    exact n.whole_ne_nil
  have hvalue : (numeralOf (n.text ++ rest) hne).value = n.value := by
    apply Numeral.value_congr
    · exact wholeOf_text h
    · simp only [numeralOf]
      rw [wholeOf_text h, drop_whole, fractionOf_fractionText h]
    · simp only [numeralOf]
      rw [wholeOf_text h, drop_whole, fractionOf_fractionText h, drop_fraction, digits_exponent h]
    · intro hexponent
      simp only [numeralOf]
      rw [wholeOf_text h, drop_whole, fractionOf_fractionText h, drop_fraction, exponentOf_exponentText hexponent]
  rw [scanNumber_eq, dif_neg hne, hvalue, hv, numeralRest_text h]
  rfl

end text

theorem exists_numeral {negative : Bool} {s rest : List Char} {v : Value} (h : scanNumber negative s = .ok (v, rest)) :
    ∃ n : Numeral, n.value negative = .ok v := by
  rw [scanNumber_eq] at h
  split_ifs at h with hne
  refine ⟨numeralOf s hne, ?_⟩
  cases hvalue : (numeralOf s hne).value negative with
  | error e =>
    rw [hvalue] at h
    cases h
  | ok w =>
    rw [hvalue] at h
    rw [(Prod.mk.inj (Except.ok.inj h)).1]

theorem Numeral.printable_text (n : Numeral) : ∀ c ∈ n.text, Printable c := by
  have hdigits {digits : List Char} (h : ∀ c ∈ digits, c.isDigit) : ∀ c ∈ digits, Printable c := by
    intro c hc
    have hrange := Char.isDigit_iff_toNat.mp (h c hc)
    simp only [Char.reduceToNat] at hrange
    exact ⟨by omega, by omega⟩
  have hfraction : ∀ c ∈ n.fractionText, Printable c := by
    unfold fractionText
    split_ifs
    · simp
    · exact List.forall_mem_cons.mpr ⟨by decide, hdigits n.fraction_digits⟩
  have hexponent : ∀ c ∈ n.exponentText, Printable c := by
    unfold exponentText
    split_ifs
    · simp
    all_goals
      refine List.forall_mem_cons.mpr ⟨by decide, ?_⟩
      exact List.forall_mem_cons.mpr ⟨by decide, hdigits n.exponent_digits⟩
  have htail := List.forall_mem_append.mpr ⟨hfraction, hexponent⟩
  exact List.forall_mem_append.mpr ⟨hdigits n.whole_digits, htail⟩

theorem Numeral.text_cons (n : Numeral) (rest : List Char) :
    ∃ c s, n.text ++ rest = c :: s ∧ c.isDigit := by
  obtain ⟨c, digits, hwhole⟩ := List.exists_cons_of_ne_nil n.whole_ne_nil
  refine ⟨c, digits ++ (n.fractionText ++ n.exponentText) ++ rest, ?_, n.whole_digits c (by simp [hwhole])⟩
  rw [Numeral.text, hwhole, List.cons_append, List.cons_append]

section integers

theorem Numeral.number_append_singleton (digits : List Char) (c : Char) :
    number (digits ++ [c]) = number digits * 10 + (c.toNat - 48) := by
  simp [number, ofDigits, List.foldl_append]

theorem Numeral.number_lt {digits : List Char} (h : ∀ c ∈ digits, c.isDigit) : number digits < 10 ^ digits.length := by
  induction digits using List.reverseRecOn with
  | nil => decide
  | append_singleton digits c ih =>
    obtain ⟨hdigits, hc⟩ := List.forall_mem_append.mp h
    have hrange := Char.isDigit_iff_toNat.mp (hc c (by simp))
    simp only [Char.reduceToNat] at hrange
    have ih := ih hdigits
    rw [number_append_singleton, List.length_append, List.length_singleton, Nat.pow_succ]
    omega

theorem Numeral.value_cases {n : Numeral} {negative : Bool} {v : Value} (h : n.value negative = .ok v) :
    (∃ k : ℤ, v = .int k ∧ k.natAbs < 10 ^ intMaxStrDigits) ∨ ∃ x, v = .float x := by
  unfold value at h
  by_cases hint : n.fraction = [] ∧ n.exponent = []
  · rw [if_pos hint] at h
    by_cases hlength : n.whole.length ≤ intMaxStrDigits
    · rw [if_pos hlength] at h
      have hlt := (number_lt n.whole_digits).trans_le (Nat.pow_le_pow_right (by decide) hlength)
      refine .inl ⟨_, (Except.ok.inj h).symm, ?_⟩
      cases negative with
      | true => rwa [if_pos rfl, Int.natAbs_neg]
      | false => exact hlt
    · rw [if_neg hlength] at h
      cases h
  · rw [if_neg hint] at h
    exact .inr ⟨_, (Except.ok.inj h).symm⟩

theorem Numeral.number_toDigits (n : ℕ) : number (Nat.toDigits 10 n) = n := by
  have hfold : number (Nat.toDigits 10 n) = Nat.ofDigitChars 10 (Nat.toDigits 10 n) 0 := by
    rw [number, ofDigits, List.foldl_map, Nat.ofDigitChars_eq_foldl]
    simp only [Nat.mul_comm]
    rfl
  rw [hfold, Nat.ofDigitChars_ten_toDigits]

theorem eq_zero_of_head?_toDigits {n : ℕ} (h : (Nat.toDigits 10 n).head? = some '0') : n = 0 := by
  induction n using Nat.strongRecOn with
  | ind n ih =>
    by_cases hn : n < 10
    · rw [Nat.toDigits_of_lt_base hn] at h
      have hall : ∀ n < 10, [n.digitChar].head? = some '0' → n = 0 := by decide
      exact hall n hn h
    · rw [Nat.toDigits_of_base_le (by omega) (by omega), List.head?_append_of_ne_nil _ Nat.toDigits_ne_nil] at h
      have hzero := ih (n / 10) (by omega) h
      omega

def Numeral.ofNat (n : ℕ) : Numeral where
  whole := Nat.toDigits 10 n
  fraction := []
  negativeExponent := false
  exponent := []
  whole_ne_nil := Nat.toDigits_ne_nil
  whole_digits := fun _ hc => Nat.isDigit_of_mem_toDigits (by omega) (by omega) hc
  whole_zero := fun h => by rw [eq_zero_of_head?_toDigits h, Nat.toDigits_zero]
  fraction_digits := by simp
  exponent_digits := by simp

theorem Numeral.value_ofNat {n : ℕ} (h : n < 10 ^ intMaxStrDigits) (negative : Bool) :
    (ofNat n).value negative = .ok (.int (if negative then -(n : ℤ) else n)) := by
  have hlength : (ofNat n).whole.length ≤ intMaxStrDigits :=
    (Nat.length_toDigits_le_iff (by omega) (by decide)).mpr h
  rw [value, if_pos ⟨rfl, rfl⟩, if_pos hlength]
  have hnumber : number (ofNat n).whole = n := number_toDigits n
  rw [hnumber]

theorem scanNumber_toDigits {n : ℕ} (h : n < 10 ^ intMaxStrDigits) (negative : Bool) {rest : List Char}
    (hrest : Delimited rest) :
    scanNumber negative (Nat.toDigits 10 n ++ rest) = .ok (.int (if negative then -(n : ℤ) else n), rest) := by
  have htext : (Numeral.ofNat n).text = Nat.toDigits 10 n := List.append_nil _
  rw [← htext]
  exact scanNumber_text hrest (Numeral.value_ofNat h negative)

end integers

end TrinityOS.Service
