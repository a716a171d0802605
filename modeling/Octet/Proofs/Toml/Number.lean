import Octet.Toml.Document

/-!
# Numbers are read as they were written

At the end of a line the decimal digits of a number are read as that number, and as nothing else:
they begin no date, no time of day and no number with a fraction.

## Main statements

* `decimalDigits_toDigits`: all digits are read.
* `atom_toDigits`: a number that fits into 64 bits with a sign is a value.
-/

namespace Octet.Toml

variable {c : Char} {digits front rest more : List Char} {n : Nat}

/-! ## Digits -/

theorem isDigit_toDigits (n : Nat) : ∀ c ∈ Nat.toDigits 10 n, c.isDigit = true :=
  fun _ => Nat.isDigit_of_mem_toDigits (by decide) (by decide)

theorem isDigit_of_append_eq_cons (n : Nat) (h : Nat.toDigits 10 n ++ rest = c :: more) :
    c.isDigit = true := by
  cases hdigits : Nat.toDigits 10 n with
  | nil => exact absurd hdigits Nat.toDigits_ne_nil
  | cons d digits =>
    rw [hdigits] at h
    exact (List.cons.inj h).1 ▸ isDigit_toDigits n d (hdigits ▸ List.mem_cons_self)

/-- Only zero is written with a zero in front. -/
theorem head?_toDigits_ne (hn : n ≠ 0) : (Nat.toDigits 10 n).head? ≠ some '0' := by
  induction n using Nat.strongRecOn with
  | ind n ih =>
    by_cases hlt : n < 10
    · simp [Nat.toDigits_of_lt_base hlt, hn]
    · have hle : 10 ≤ n := Nat.le_of_not_lt hlt
      rw [Nat.toDigits_of_base_le (by decide) hle, List.head?_append,
        List.head?_eq_some_head Nat.toDigits_ne_nil, Option.some_or, ← List.head?_eq_some_head]
      exact ih (n / 10) (by omega) (by omega)

theorem digitRun_of_not_isDigit (hc : c.isDigit = false) (rest : List Char) :
    digitRun Char.isDigit (c :: rest) = ([], c :: rest) := by
  unfold digitRun
  split
  next heq => cases heq
  next heq => rw [← heq]
  next heq =>
    obtain ⟨rfl, rfl⟩ := List.cons.inj heq
    rw [if_neg (by simp [hc])]
  next heq =>
    obtain ⟨rfl, rfl⟩ := List.cons.inj heq
    rw [if_neg (by simp [hc])]

theorem digitRun_append (hdigits : ∀ c ∈ digits, c.isDigit = true) (rest : List Char) :
    digitRun Char.isDigit (digits ++ '\n' :: rest) = (digits, '\n' :: rest) := by
  induction digits with
  | nil => exact digitRun_of_not_isDigit rfl rest
  | cons c digits ih =>
    rw [List.forall_mem_cons] at hdigits
    rw [List.cons_append, digitRun, if_pos hdigits.1, ih hdigits.2]
    · rintro rfl
      cases hdigits.1
    · intro d more heq
      cases digits with
      | nil => cases heq
      | cons e digits =>
        obtain ⟨rfl, -⟩ := List.cons.inj heq
        cases hdigits.2 _ List.mem_cons_self

/-- All digits of a number are read. -/
@[simp] theorem decimalDigits_toDigits (n : Nat) (rest : List Char) :
    decimalDigits (Nat.toDigits 10 n ++ '\n' :: rest) =
      some (Nat.toDigits 10 n, '\n' :: rest) := by
  by_cases hn : n = 0
  · subst hn
    rfl
  have hhead := head?_toDigits_ne hn
  have hrun := digitRun_append (isDigit_toDigits n) rest
  cases hdigits : Nat.toDigits 10 n with
  | nil => exact absurd hdigits Nat.toDigits_ne_nil
  | cons c digits =>
    rw [hdigits] at hhead hrun
    rw [List.cons_append, decimalDigits, digits1, ← List.cons_append, hrun]
    intro more heq
    exact hhead (congrArg some (List.cons.inj heq).1)

/-! ## Numbers -/

/-- Only the end of the line ends the digits. -/
theorem isDigit_or_eq_of_append (hdigits : ∀ c ∈ digits, c.isDigit = true)
    (hfront : ∀ c ∈ front, c.isDigit = true) (h : digits ++ '\n' :: rest = front ++ c :: more) :
    c.isDigit = true ∨ c = '\n' := by
  induction front generalizing digits with
  | nil =>
    cases digits with
    | nil => grind
    | cons d digits => grind
  | cons f front ih =>
    rw [List.forall_mem_cons] at hfront
    cases digits with
    | nil =>
      obtain ⟨rfl, -⟩ := List.cons.inj h
      cases hfront.1
    | cons d digits =>
      rw [List.forall_mem_cons] at hdigits
      exact ih hdigits.2 hfront.2 (List.cons.inj h).2

theorem isDigit_of_number? (h : number? digits = some n) : ∀ c ∈ digits, c.isDigit = true := by
  unfold number? at h
  split at h
  next hall => exact List.all_eq_true.mp hall
  next => cases h

theorem dropMoment?_digits (hdigits : ∀ c ∈ digits, c.isDigit = true) (rest : List Char) :
    dropMoment? (digits ++ '\n' :: rest) = none := by
  have hdate : dropDate? (digits ++ '\n' :: rest) = none := by
    unfold dropDate?
    split
    next a b c d _ _ _ _ _ heq =>
      cases hyear : number? [a, b, c, d] with
      | none => rfl
      | some year =>
        have hdash := isDigit_or_eq_of_append hdigits (isDigit_of_number? hyear) heq
        cases hdash with
        | inl h => cases h
        | inr h => cases h
    next => rfl
  have htime : dropTime? (digits ++ '\n' :: rest) = none := by
    unfold dropTime?
    split
    next a b _ _ _ _ _ heq =>
      cases hhour : number? [a, b] with
      | none => simp [between?, hhour]
      | some hour =>
        have hcolon := isDigit_or_eq_of_append hdigits (isDigit_of_number? hhour) heq
        cases hcolon with
        | inl h => cases h
        | inr h => cases h
    next => rfl
  rw [dropMoment?, hdate, htime]

@[simp] theorem sign_toDigits (n : Nat) (rest : List Char) :
    sign (Nat.toDigits 10 n ++ rest) = (none, Nat.toDigits 10 n ++ rest) := by
  unfold sign
  split
  next heq => cases isDigit_of_append_eq_cons n heq
  next heq => cases isDigit_of_append_eq_cons n heq
  next => rfl

@[simp] theorem finiteFloat_toDigits (negative : Bool) (n : Nat) (rest : List Char) :
    finiteFloat negative (Nat.toDigits 10 n ++ '\n' :: rest) = none := by
  have hfraction : fraction ('\n' :: rest) = some ([], '\n' :: rest) := rfl
  have hexponent : exponent ('\n' :: rest) = some (none, '\n' :: rest) := rfl
  simp [finiteFloat, hfraction, hexponent]

@[simp] theorem float_toDigits (n : Nat) (rest : List Char) :
    float (Nat.toDigits 10 n ++ '\n' :: rest) = none := by
  simp only [float, sign_toDigits]
  split
  next heq => cases isDigit_of_append_eq_cons n heq
  next heq => cases isDigit_of_append_eq_cons n heq
  next => exact finiteFloat_toDigits _ n rest

@[simp] theorem decimalInteger_toDigits (n : Nat) (rest : List Char) :
    decimalInteger (Nat.toDigits 10 n ++ '\n' :: rest) = some ((n : Int), '\n' :: rest) := by
  simp [decimalInteger, Nat.ofDigitChars_ten_toDigits]

@[simp] theorem integer_toDigits (hn : n < 1 <<< 63) (rest : List Char) :
    integer (Nat.toDigits 10 n ++ '\n' :: rest) = some ((n : Int), '\n' :: rest) := by
  have hrange : Int64.minValue.toInt ≤ n ∧ n ≤ Int64.maxValue.toInt := by grind
  -- Behind a zero in front the line ends, so that no other base is announced.
  have hbase {c : Char} {more : List Char} (hc : c.isDigit = false) (hlf : c ≠ '\n') :
      Nat.toDigits 10 n ++ '\n' :: rest ≠ '0' :: c :: more := by
    intro heq
    have hfront : ∀ c ∈ ['0'], c.isDigit = true := List.forall_mem_singleton.mpr rfl
    cases isDigit_or_eq_of_append (isDigit_toDigits n) hfront heq with
    | inl h =>
      rw [hc] at h
      cases h
    | inr h => exact hlf h
  unfold integer
  split
  next heq => exact absurd heq (hbase rfl (by decide))
  next heq => exact absurd heq (hbase rfl (by decide))
  next heq => exact absurd heq (hbase rfl (by decide))
  next =>
    simp only [decimalInteger_toDigits, bind, Option.bind]
    rw [if_pos hrange]

/-- A number that fits into 64 bits with a sign is read as it was written. -/
@[simp] theorem atom_toDigits (hn : n < 1 <<< 63) (rest : List Char) :
    atom (Nat.toDigits 10 n ++ '\n' :: rest) = some (.integer n, '\n' :: rest) := by
  unfold atom
  split
  next heq => cases isDigit_of_append_eq_cons n heq
  next heq => cases isDigit_of_append_eq_cons n heq
  next heq => cases isDigit_of_append_eq_cons n heq
  next heq => cases isDigit_of_append_eq_cons n heq
  next =>
    rw [dropMoment?_digits (isDigit_toDigits n), float_toDigits, integer_toDigits hn]
    rfl

end Octet.Toml
