import Checkout.Json.Parser
import Checkout.Json.Printer
import Checkout.Proofs.Toml.Value
import Mathlib.Data.List.TakeWhile

/-!
# Texts and numbers of JSON read as they were written

A text is read up to its closing quote, whatever characters it has. An integer is read up to the first
character that cannot go on with a number.
-/

namespace Checkout

/-! ## Numerals -/

theorem digit?_of_isDigit {char : Char} (digit : char.isDigit = true) :
    digit? char = some (char.toNat - '0'.toNat) := by
  have bounds : '0' ≤ char ∧ char ≤ '9' := by
    simpa [Char.isDigit, Char.le_def] using digit
  rw [digit?, if_pos bounds]

theorem decimalFrom?_numeral {digits : List Char} (numeral : ∀ char ∈ digits, char.isDigit = true)
    (value : Nat) : decimalFrom? value digits = some (Nat.ofDigitChars 10 digits value) := by
  rw [Nat.ofDigitChars_eq_foldl]
  induction digits generalizing value with
  | nil => rfl
  | cons first digits ih =>
      rw [decimalFrom?, digit?_of_isDigit (numeral first List.mem_cons_self), Option.bind_some, List.foldl_cons,
        ih fun char char_mem => numeral char (List.mem_cons_of_mem _ char_mem), Nat.mul_comm value 10]

theorem decimal?_numeral {digits : List Char} (numeral : ∀ char ∈ digits, char.isDigit = true)
    (nonempty : digits ≠ []) : decimal? digits = some (Nat.ofDigitChars 10 digits 0) := by
  obtain ⟨first, rest, rfl⟩ := List.exists_cons_of_ne_nil nonempty
  exact decimalFrom?_numeral numeral 0

theorem decimal?_toDigits (value : Nat) : decimal? (Nat.toDigits 10 value) = some value := by
  rw [decimal?_numeral (fun _ => Toml.isDigit_of_mem_toDigits) Nat.toDigits_ne_nil, Nat.ofDigitChars_ten_toDigits]

namespace Json

variable {char : Char} {rest : List Char}

/-! ## Texts -/

theorem textBody_self (rest : List Char) (unquoted : char ≠ '"') (unescaped : char ≠ '\\')
    (visible : 0x20 ≤ char.toNat) :
    textBody (char :: rest) = (textBody rest).map fun (text, rest) => (char :: text, rest) := by
  have high : ¬(char = '\\' ∨ char.toNat < 0x20) := by
    rw [not_or]
    exact ⟨unescaped, by omega⟩
  rw [textBody]
  · rw [if_neg high]
    cases textBody rest <;> rfl
  · exact unquoted
  · intro a b c d tail same
    exact absurd same unescaped
  · intro letter tail same
    exact absurd same unescaped

theorem textBody_shortEscape {letter : Char} (rest : List Char) (escape : shortEscape? letter = some char) :
    textBody ('\\' :: letter :: rest) =
      (textBody rest).map fun (text, rest) => (char :: text, rest) := by
  have letter_ne : letter ≠ 'u' := by
    rintro rfl
    simp [shortEscape?] at escape
  rw [textBody]
  · simp only [escape, Option.bind_eq_bind, Option.bind_some]
    cases textBody rest <;> rfl
  · intro a b c d tail isUnicode
    exact absurd isUnicode letter_ne

theorem textBody_codePoint {a b c d : Char} {code : Nat} (rest : List Char)
    (read : hexFrom? 0 [a, b, c, d] = some code) (low : code < 0xD800) :
    textBody ('\\' :: 'u' :: a :: b :: c :: d :: rest) =
      (textBody rest).map fun (text, rest) => (Char.ofNat code :: text, rest) := by
  rw [textBody, read]
  simp only [Option.bind_eq_bind, Option.bind_some]
  rw [if_neg (by omega), if_neg (by omega)]
  cases textBody rest <;> rfl

/-- The escapes of control characters, of which there are few. -/
theorem controlEscape_table : ∀ code < 0x20,
    (controlEscape (Char.ofNat code)).take 2 = ['\\', 'u'] ∧
      (controlEscape (Char.ofNat code)).length = 6 ∧
      hexFrom? 0 ((controlEscape (Char.ofNat code)).drop 2) = some code := by
  decide

theorem textBody_controlEscape (rest : List Char) (control : char.toNat < 0x20) :
    textBody (controlEscape char ++ rest) =
      (textBody rest).map fun (text, rest) => (char :: text, rest) := by
  obtain ⟨front, size, read⟩ := controlEscape_table char.toNat control
  rw [Char.ofNat_toNat] at front size read
  have width : ((controlEscape char).drop 2).length = 4 := by
    rw [List.length_drop, size]
  rw [← List.take_append_drop 2 (controlEscape char), front]
  match digits : (controlEscape char).drop 2, width with
  | [a, b, c, d], _ =>
      rw [digits] at read
      have code := textBody_codePoint rest read (by omega)
      rw [Char.ofNat_toNat] at code
      exact code

theorem textBody_escape (char : Char) (rest : List Char) :
    textBody (escape char ++ rest) =
      (textBody rest).map fun (text, rest) => (char :: text, rest) := by
  rw [escape]
  split_ifs with quoted escaped backspace formFeed feed carriage tab control
  · exact textBody_shortEscape rest (by rw [quoted]; rfl)
  · exact textBody_shortEscape rest (by rw [escaped]; rfl)
  · exact textBody_shortEscape rest (by rw [backspace]; rfl)
  · exact textBody_shortEscape rest (by rw [formFeed]; rfl)
  · exact textBody_shortEscape rest (by rw [feed]; rfl)
  · exact textBody_shortEscape rest (by rw [carriage]; rfl)
  · exact textBody_shortEscape rest (by rw [tab]; rfl)
  · exact textBody_controlEscape rest control
  · exact textBody_self rest quoted escaped (by omega)

/-- A text is read back behind its opening quote, with what follows its closing quote. -/
theorem textBody_quoted (chars rest : List Char) :
    textBody (chars.flatMap escape ++ '"' :: rest) = some (chars, rest) := by
  induction chars with
  | nil => rw [List.flatMap_nil, List.nil_append, textBody]
  | cons char chars ih => rw [List.flatMap_cons, List.append_assoc, textBody_escape, ih]; rfl

theorem toList_quote (text : String) :
    (quote text).toList = '"' :: (text.toList.flatMap escape ++ ['"']) := by
  rw [quote, String.toList_ofList]
  rfl

/-! ## Integers -/

/-- A number ends here: what comes next is neither a digit nor the start of a fraction or an exponent. -/
def EndsNumber (rest : List Char) : Prop :=
  ∀ char, rest.head? = some char →
    char.isDigit = false ∧ char ≠ '.' ∧ char ≠ 'e' ∧ char ≠ 'E'

theorem EndsNumber.nil : EndsNumber [] := by
  simp [EndsNumber]

theorem EndsNumber.cons (rest : List Char) (ends : char = ',' ∨ char = '\n') : EndsNumber (char :: rest) := by
  intro other same
  obtain rfl := Option.some.inj same
  rcases ends with rfl | rfl <;> decide

theorem digitsFirst_numeral {digits : List Char} (numeral : ∀ char ∈ digits, char.isDigit = true)
    (ends : EndsNumber rest) : digitsFirst (digits ++ rest) = (digits, rest) := by
  cases rest with
  | nil =>
      rw [List.append_nil, digitsFirst, List.span_eq_takeWhile_dropWhile, List.takeWhile_eq_self_iff.mpr numeral,
        List.dropWhile_eq_nil_iff.mpr numeral]
  | cons mark rest => exact Toml.span_run numeral (ends mark rfl).1 rest

theorem unsignedNumber?_toDigits (negative : Bool) (magnitude : Nat) (ends : EndsNumber rest)
    (signed : negative = true → magnitude ≠ 0) :
    unsignedNumber? negative (Nat.toDigits 10 magnitude ++ rest) =
      some (.integer (if negative then -(magnitude : Int) else magnitude), rest) := by
  have numeral : ∀ char ∈ Nat.toDigits 10 magnitude, char.isDigit = true :=
    fun _ => Toml.isDigit_of_mem_toDigits
  have lead : ¬(Nat.toDigits 10 magnitude = [] ∨
      (Nat.toDigits 10 magnitude).head? = some '0' ∧ Nat.toDigits 10 magnitude ≠ ['0']) := by
    rintro (none | ⟨leading, several⟩)
    · exact Nat.toDigits_ne_nil none
    · rw [Toml.eq_zero_of_head?_toDigits leading] at several
      exact several rfl
  have whole : fraction? rest = some ([], rest) := by
    cases rest with
    | nil => rfl
    | cons mark rest =>
        have mark_ne := (ends mark rfl).2.1
        rw [fraction?]
        simpa using mark_ne
  have plain : exponent? rest = some ([], rest) := by
    cases rest with
    | nil => rfl
    | cons mark rest =>
        obtain ⟨-, -, small, large⟩ := ends mark rfl
        simp [exponent?, small, large]
  have nonzero : negative = true → Nat.toDigits 10 magnitude ≠ ['0'] := by
    intro isNegative zero
    have value := Nat.ofDigitChars_ten_toDigits (n := magnitude)
    rw [zero] at value
    exact signed isNegative (value.symm.trans (by decide))
  simp only [unsignedNumber?, digitsFirst_numeral numeral ends, if_neg lead, whole, plain,
    Option.bind_eq_bind, Option.bind_some, true_and, if_pos nonzero, decimal?_toDigits]
  rfl

end Json

end Checkout
