import Mathlib.Data.List.Induction
import OnScreen.Config
import OnScreen.Proofs.Json.Number

namespace OnScreen

/-!
# Numbers as the environment writes them

The environment and the command line give a number as a text.  What is read is the number in
decimal, with any zeros and at most a plus in front, as long as it fits a word; every other text is
refused.

* `Spells` — the texts that stand for a number, told by how the number is written.
* `exists_leading_zeros` — any digits are a number in decimal behind some zeros.
* `wordOfText?_eq_some_iff` — the texts that are read as a number are those that spell it.
-/

/-- A text spells a number: it is the number in decimal, with any zeros and at most a plus in front,
    and the number fits a word. -/
def Spells (text : String) (n : Nat) : Prop :=
  n < 2 ^ 64 ∧ ∃ sign zeros, (sign = [] ∨ sign = ['+']) ∧
    text.toList = sign ++ (List.replicate zeros '0' ++ Nat.toDigits 10 n)

/-! ### Digits -/

/-- A digit spells a number below ten, and that number is spelled by the digit. -/
theorem digitChar_of_isDigit {d : Char} (h : d.isDigit = true) :
    d.toNat - 48 < 10 ∧ Nat.digitChar (d.toNat - 48) = d := by
  have range : 48 ≤ d.toNat ∧ d.toNat ≤ 57 := Char.isDigit_iff_toNat.1 h
  have small : d.toNat - 48 < 10 := by omega
  refine ⟨small, Char.toNat_inj.1 ?_⟩
  rw [Nat.toNat_digitChar_of_lt_ten small]
  omega

/-- Digits are a number in decimal behind some zeros. -/
theorem exists_leading_zeros {ds : List Char} (digits : ∀ d ∈ ds, d.isDigit = true)
    (nonempty : ds ≠ []) :
    ∃ zeros, ds = List.replicate zeros '0' ++ Nat.toDigits 10 (Nat.ofDigitChars 10 ds 0) := by
  induction ds using List.reverseRecOn with
  | nil => exact absurd rfl nonempty
  | append_singleton ds d ih =>
    obtain ⟨small, same⟩ := digitChar_of_isDigit (digits d (by simp))
    have last : Nat.toDigits 10 (d.toNat - 48) = [d] := by
      rw [Nat.toDigits_of_lt_base small, same]
    have value : Nat.ofDigitChars 10 (ds ++ [d]) 0 =
        10 * Nat.ofDigitChars 10 ds 0 + (d.toNat - 48) := by
      rw [Nat.ofDigitChars_append, Nat.ofDigitChars_cons, Nat.ofDigitChars_nil]
      rfl
    rw [value]
    by_cases first : ds = []
    · subst first
      refine ⟨0, ?_⟩
      rw [Nat.ofDigitChars_nil, Nat.mul_zero, Nat.zero_add, last]
      rfl
    · obtain ⟨zeros, before⟩ := ih (fun e he => digits e (by simp [he])) first
      rcases Nat.eq_zero_or_pos (Nat.ofDigitChars 10 ds 0) with zero | positive
      · -- the digit in front of the last one is a leading zero too
        refine ⟨zeros + 1, ?_⟩
        rw [zero] at before ⊢
        rw [before, Nat.mul_zero, Nat.zero_add, last, List.replicate_succ']
        rfl
      · refine ⟨zeros, ?_⟩
        rw [← Nat.toDigits_append_toDigits (by decide) positive small, last, ← List.append_assoc,
          ← before]

/-- A spelling with zeros in front has digits only. -/
theorem isDigit_of_mem_spelling {zeros n : Nat} {d : Char}
    (h : d ∈ List.replicate zeros '0' ++ Nat.toDigits 10 n) : d.isDigit = true := by
  rcases List.mem_append.1 h with zero | digit
  · rw [List.eq_of_mem_replicate zero]
    rfl
  · exact Json.isDigit_of_mem_toDigits digit

/-- Leading zeros do not count. -/
theorem ofDigitChars_spelling (zeros n : Nat) :
    Nat.ofDigitChars 10 (List.replicate zeros '0' ++ Nat.toDigits 10 n) 0 = n := by
  rw [Nat.ofDigitChars_append, Nat.ofDigitChars_replicate_zero, Nat.mul_zero]
  exact Nat.ofDigitChars_toDigits (by decide) (by decide)

/-! ### What is read -/

/-- A text without a plus in front. -/
def withoutPlus : List Char → List Char
  | '+' :: ds => ds
  | ds => ds

/-- Every text is what is left without a plus sign, behind one or none. -/
theorem exists_sign (cs : List Char) :
    ∃ sign, (sign = [] ∨ sign = ['+']) ∧ cs = sign ++ withoutPlus cs := by
  unfold withoutPlus
  split
  · next ds => exact ⟨['+'], .inr rfl, rfl⟩
  · exact ⟨[], .inl rfl, rfl⟩

/-- Behind the plus sign comes what was written there. -/
theorem withoutPlus_sign {sign ds : List Char} (plus : sign = [] ∨ sign = ['+']) (h : '+' ∉ ds) :
    withoutPlus (sign ++ ds) = ds := by
  rcases plus with rfl | rfl
  · unfold withoutPlus
    split
    · next tail same =>
      have same : ds = '+' :: tail := same
      exact absurd (same ▸ List.mem_cons_self) h
    · rfl
  · rfl

/-- Reading comes down to what the digits behind a plus make. -/
theorem wordOfText?_eq_some_iff_digits (text : String) (n : Nat) :
    wordOfText? text = some n ↔ withoutPlus text.toList ≠ [] ∧
      (∀ d ∈ withoutPlus text.toList, d.isDigit = true) ∧
      Nat.ofDigitChars 10 (withoutPlus text.toList) 0 = n ∧ n < 2 ^ 64 := by
  have read : wordOfText? text =
      if (withoutPlus text.toList).isEmpty || !(withoutPlus text.toList).all Char.isDigit then none
      else
        let n := (withoutPlus text.toList).foldl (fun n d => n * 10 + (d.toNat - 48)) 0
        if n < wordLimit then some n else none := rfl
  rw [read]
  generalize withoutPlus text.toList = ds
  -- the digits are folded as the library reads them
  have value : ds.foldl (fun n d => n * 10 + (d.toNat - 48)) 0 = Nat.ofDigitChars 10 ds 0 := by
    rw [Nat.ofDigitChars_eq_foldl]
    simp only [Nat.mul_comm _ 10]
    rfl
  rw [value]
  cases ds with
  | nil => exact iff_of_false nofun fun h => h.1 rfl
  | cons d ds =>
    cases digits : (d :: ds).all Char.isDigit with
    | false =>
      refine iff_of_false nofun fun h => ?_
      rw [List.all_eq_true.2 h.2.1] at digits
      cases digits
    | true =>
      show (if Nat.ofDigitChars 10 (d :: ds) 0 < wordLimit then _ else none) = some n ↔ _
      rw [Option.ite_none_right_eq_some, Option.some.injEq]
      constructor
      · rintro ⟨fits, rfl⟩
        exact ⟨List.cons_ne_nil _ _, List.all_eq_true.1 digits, rfl, fits⟩
      · rintro ⟨-, -, rfl, fits⟩
        exact ⟨fits, rfl⟩

/-- The texts that are read as a number are those that spell it. -/
theorem wordOfText?_eq_some_iff (text : String) (n : Nat) :
    wordOfText? text = some n ↔ Spells text n := by
  rw [wordOfText?_eq_some_iff_digits, Spells]
  constructor
  · rintro ⟨nonempty, digits, rfl, fits⟩
    -- what the digits have in front of the number's own are zeros
    obtain ⟨zeros, spelled⟩ := exists_leading_zeros digits nonempty
    obtain ⟨sign, plus, whole⟩ := exists_sign text.toList
    refine ⟨fits, sign, zeros, plus, ?_⟩
    rw [← spelled]
    exact whole
  · rintro ⟨fits, sign, zeros, plus, spelled⟩
    have digits : ∀ d ∈ List.replicate zeros '0' ++ Nat.toDigits 10 n, d.isDigit = true :=
      fun d mem => isDigit_of_mem_spelling mem
    -- a plus in front is dropped, and a digit is none
    have unsigned : withoutPlus text.toList = List.replicate zeros '0' ++ Nat.toDigits 10 n := by
      rw [spelled]
      exact withoutPlus_sign plus fun mem => absurd (digits '+' mem) (by decide)
    rw [unsigned, ofDigitChars_spelling]
    exact ⟨by simp, digits, rfl, fits⟩

end OnScreen
