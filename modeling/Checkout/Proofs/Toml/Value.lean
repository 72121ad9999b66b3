import Checkout.Proofs.Toml.Text
import Checkout.Toml.Value
import Mathlib.Data.List.TakeDrop

/-!
# Values of TOML read as they were written

A flag, a natural number or a text is read up to the character behind it, and so is a list of them, whether
it is written on one line or over several. A numeral is neither a date nor a time, since what stands behind
its digits would have to be part of either.
-/

namespace Checkout.Toml

/-- The characters that stand behind a value where it is written: the end of the line, or what goes on with
or ends the list it is in. -/
def EndsValue (char : Char) : Prop :=
  char = '\n' ∨ char = ',' ∨ char = ']'

/-- A run of characters ends in front of the first one that does not belong to it. -/
theorem span_run {isIn : Char → Bool} {run : List Char} {mark : Char}
    (inside : ∀ char ∈ run, isIn char = true) (stops : isIn mark = false) (rest : List Char) :
    (run ++ mark :: rest).span isIn = (run, mark :: rest) := by
  rw [List.span_eq_takeWhile_dropWhile, List.takeWhile_append_of_pos inside,
    List.dropWhile_append_of_pos inside, List.takeWhile_cons_of_neg (by simp [stops]),
    List.dropWhile_cons_of_neg (by simp [stops]), List.append_nil]

theorem ne_of_isIn {isIn : Char → Bool} {first other : Char} (inside : isIn first = true)
    (outside : isIn other = false) : first ≠ other :=
  ne_of_apply_ne isIn (by simp [inside, outside])

/-! ## Numbers -/

section Numerals

variable {digits : List Char} {mark : Char} {width low high : Nat}

theorem EndsValue.not_digit (ends : EndsValue mark) : mark.isDigit = false := by
  rcases ends with rfl | rfl | rfl <;> rfl

/-- What is left behind the front of a numeral is the rest of the numeral. -/
theorem fixed?_numeral (numeral : ∀ char ∈ digits, char.isDigit = true) (ends : EndsValue mark)
    {rest after : List Char} {value : Nat}
    (read : fixed? width low high (digits ++ mark :: rest) = some (value, after)) :
    after = digits.drop width ++ mark :: rest := by
  have short : ((digits ++ mark :: rest).take width).takeWhile Char.isDigit = digits.take width := by
    rw [List.take_append, List.takeWhile_append_of_pos
      (fun char char_mem => numeral char (List.mem_of_mem_take char_mem))]
    rcases width - digits.length with _ | more
    · simp
    · simp [ends.not_digit]
  simp only [fixed?, short, bind, Option.bind, List.length_take] at read
  split at read
  · simp at read
  · split at read
    · simp only [Option.some.injEq, Prod.mk.injEq] at read
      have enough : width ≤ digits.length := by omega
      rw [← read.2, List.drop_append_of_le_length enough]
    · simp at read

theorem mark?_numeral (numeral : ∀ char ∈ digits, char.isDigit = true) {wanted : Char}
    (other : wanted.isDigit = false) (apart : mark ≠ wanted) (rest : List Char) :
    mark? wanted (digits ++ mark :: rest) = none := by
  rcases digits with _ | ⟨first, digits⟩
  · simp [mark?, apart]
  · have first_ne : first ≠ wanted := ne_of_isIn (numeral first List.mem_cons_self) other
    simp [mark?, first_ne]

/-- A date or a time has a dash or a colon behind its first digits, a numeral has not. -/
theorem skipMoment?_numeral (numeral : ∀ char ∈ digits, char.isDigit = true) (ends : EndsValue mark)
    (rest : List Char) : skipMoment? (digits ++ mark :: rest) = none := by
  have unmarked {wanted : Char} (other : wanted.isDigit = false) (apart : mark ≠ wanted)
      {low high value : Nat} {width : Nat} {after : List Char}
      (read : fixed? width low high (digits ++ mark :: rest) = some (value, after)) :
      mark? wanted after = none := by
    rw [fixed?_numeral numeral ends read]
    exact mark?_numeral (fun char char_mem => numeral char (List.mem_of_mem_drop char_mem)) other apart rest
  have noDash : mark ≠ '-' := by rcases ends with rfl | rfl | rfl <;> decide
  have noColon : mark ≠ ':' := by rcases ends with rfl | rfl | rfl <;> decide
  have noDate : skipDate? (digits ++ mark :: rest) = none := by
    rw [skipDate?]
    cases year : fixed? 4 0 9999 (digits ++ mark :: rest) with
    | none => rfl
    | some read => simp [unmarked (by decide) noDash year]
  have noTime : skipTime? (digits ++ mark :: rest) = none := by
    rw [skipTime?]
    cases hour : fixed? 2 0 23 (digits ++ mark :: rest) with
    | none => rfl
    | some read => simp [unmarked (by decide) noColon hour]
  rw [skipMoment?, noDate]
  exact noTime

theorem pieces_numeral (numeral : ∀ char ∈ digits, char.isDigit = true) :
    digits?.pieces digits = [digits] := by
  induction digits with
  | nil => rfl
  | cons first digits ih =>
      have first_ne : first ≠ '_' := ne_of_isIn (numeral first List.mem_cons_self) (by decide)
      rw [digits?.pieces, if_neg first_ne, ih fun char char_mem => numeral char (List.mem_cons_of_mem _ char_mem)]

theorem digits?_numeral (numeral : ∀ char ∈ digits, char.isDigit = true) (nonempty : digits ≠ [])
    (ends : EndsValue mark) (rest : List Char) :
    digits? Char.isDigit (digits ++ mark :: rest) = some (digits, mark :: rest) := by
  have run (char : Char) (char_mem : char ∈ digits) : (char.isDigit || decide (char = '_')) = true := by
    rw [numeral char char_mem, Bool.true_or]
  have noGroup : mark ≠ '_' := by rcases ends with rfl | rfl | rfl <;> decide
  have stops : (mark.isDigit || decide (mark = '_')) = false := by
    rw [ends.not_digit, Bool.false_or, decide_eq_false noGroup]
  rw [digits?, span_run run stops]
  simp [pieces_numeral numeral, nonempty]

theorem hexDigit?_of_isDigit {char : Char} (digit : char.isDigit = true) :
    hexDigit? char = some (char.toNat - '0'.toNat) := by
  have bounds : '0' ≤ char ∧ char ≤ '9' := by
    simpa [Char.isDigit, Char.le_def] using digit
  rw [hexDigit?, if_pos bounds]

theorem foldl_numeral (numeral : ∀ char ∈ digits, char.isDigit = true) (value : Nat) :
    digits.foldl (fun value char => value * 10 + (hexDigit? char).getD 0) value =
      Nat.ofDigitChars 10 digits value := by
  rw [Nat.ofDigitChars_eq_foldl]
  induction digits generalizing value with
  | nil => rfl
  | cons first digits ih =>
      rw [List.foldl_cons, List.foldl_cons, hexDigit?_of_isDigit (numeral first List.mem_cons_self),
        Option.getD_some, Nat.mul_comm value 10]
      exact ih (fun char char_mem => numeral char (List.mem_cons_of_mem _ char_mem)) _

end Numerals

/-- The least natural number for which 64 bits with a sign are too few. -/
def naturalLimit : Nat := 9223372036854775808

theorem isDigit_of_mem_toDigits {value : Nat} {char : Char} (char_mem : char ∈ Nat.toDigits 10 value) :
    char.isDigit = true :=
  Nat.isDigit_of_mem_toDigits (by decide) (by decide) char_mem

/-- Only the numeral of zero starts with a zero. -/
theorem eq_zero_of_head?_toDigits {value : Nat}
    (leading : (Nat.toDigits 10 value).head? = some '0') : value = 0 := by
  induction value using Nat.strongRecOn with
  | ind value ih =>
      rw [Nat.toDigits_eq_if (by decide)] at leading
      split at leading
      · rename_i single
        have table : ∀ digit < 10, Nat.digitChar digit = '0' → digit = 0 := by decide
        exact table value single (by simpa using leading)
      · rename_i several
        rw [List.head?_append_of_ne_nil _ Nat.toDigits_ne_nil] at leading
        have := ih (value / 10) (by omega) leading
        omega

variable {mark : Char}

theorem decimalNumber?_toDigits {value : Nat} (small : value < naturalLimit) (ends : EndsValue mark)
    (rest : List Char) :
    decimalNumber? none (Nat.toDigits 10 value ++ mark :: rest) = some (.integer value, mark :: rest) := by
  have lead : ¬((Nat.toDigits 10 value).head? = some '0' ∧ Nat.toDigits 10 value ≠ ['0']) := by
    rintro ⟨leading, several⟩
    rw [eq_zero_of_head?_toDigits leading] at several
    exact several rfl
  have whole : fraction? (mark :: rest) = some ([], mark :: rest) := by
    rcases ends with rfl | rfl | rfl <;> rfl
  have plain : exponent? (mark :: rest) = some (none, mark :: rest) := by
    rcases ends with rfl | rfl | rfl <;> rfl
  have fits : Int64.minValue.toInt ≤ (value : Int) ∧ (value : Int) ≤ Int64.maxValue.toInt := by
    have low : Int64.minValue.toInt = -9223372036854775808 := by decide
    have high : Int64.maxValue.toInt = 9223372036854775807 := by decide
    rw [naturalLimit] at small
    omega
  rw [decimalNumber?, digits?_numeral (fun _ => isDigit_of_mem_toDigits) Nat.toDigits_ne_nil ends]
  simp only [Option.bind_eq_bind, Option.bind_some, if_neg lead, whole, plain, and_self, if_true,
    valueInBase, foldl_numeral fun _ => isDigit_of_mem_toDigits, Nat.ofDigitChars_ten_toDigits, integer?]
  simp only [reduceCtorEq, if_false, if_pos fits, Option.bind_some]
  rfl

/-- A number whose first characters are neither a sign nor the mark of a base is decimal. -/
theorem number?_eq_decimalNumber? {first second : Char} (digit : first.isDigit = true)
    (unmarked : second.isDigit = true ∨ EndsValue second) (rest : List Char) :
    number? (first :: second :: rest) = decimalNumber? none (first :: second :: rest) := by
  have based : second ≠ 'x' ∧ second ≠ 'o' ∧ second ≠ 'b' := by
    refine ⟨?_, ?_, ?_⟩ <;> rintro rfl <;> simp [EndsValue] at unmarked
  have first_ne {other : Char} : other.isDigit = false → first ≠ other := ne_of_isIn digit
  have unsigned : sign (first :: second :: rest) = (none, first :: second :: rest) := by
    simp [sign, first_ne]
  rw [number?, unsigned]
  · simp [first_ne]
  all_goals
    intro tail same
    simp only [List.cons.injEq] at same
    simp [same] at based

theorem number?_toDigits {value : Nat} (small : value < naturalLimit) (ends : EndsValue mark)
    (rest : List Char) :
    number? (Nat.toDigits 10 value ++ mark :: rest) = some (.integer value, mark :: rest) := by
  rw [← decimalNumber?_toDigits small ends rest]
  -- The mark of a base would be the second character, which is a digit or stands behind the only one.
  have numeral : ∀ char ∈ Nat.toDigits 10 value, char.isDigit = true := fun _ => isDigit_of_mem_toDigits
  have nonempty : Nat.toDigits 10 value ≠ [] := Nat.toDigits_ne_nil
  generalize Nat.toDigits 10 value = digits at numeral nonempty
  match digits, nonempty with
  | [first], _ => exact number?_eq_decimalNumber? (numeral first (by simp)) (.inr ends) rest
  | first :: second :: digits, _ =>
      exact number?_eq_decimalNumber? (numeral first (by simp)) (.inl (numeral second (by simp))) _

/-! ## Values -/

/-- Values that are written on one line and read back: flags, natural numbers and texts. -/
inductive IsScalar : Data → Prop
  | flag (value : Bool) : IsScalar (.flag value)
  | natural {value : Nat} (small : value < naturalLimit) : IsScalar (.integer value)
  | text (value : String) : IsScalar (.text value)

def StartsScalar (char : Char) : Prop :=
  char.isAlphanum = true ∨ char = '"' ∨ char = '\''

variable {value : Data}

theorem IsScalar.renderValue_eq (scalar : IsScalar value) : renderValue value = renderScalar value := by
  cases scalar <;> rfl

theorem IsScalar.exists_renderScalar (scalar : IsScalar value) :
    ∃ first more, (renderScalar value).toList = first :: more ∧ StartsScalar first := by
  cases scalar with
  | flag value => cases value <;> exact ⟨_, _, rfl, .inl rfl⟩
  | @natural value small =>
      have digits : (renderScalar (.integer value)).toList = Nat.toDigits 10 value := Nat.toList_repr
      rcases shape : Nat.toDigits 10 value with _ | ⟨first, more⟩
      · exact absurd shape Nat.toDigits_ne_nil
      · have digit : first.isDigit = true := isDigit_of_mem_toDigits (shape ▸ List.mem_cons_self)
        exact ⟨first, more, digits.trans shape, .inl (by simp [Char.isAlphanum, digit])⟩
  | text value =>
      rcases exists_renderText value with ⟨quote, tail, written, is_quote⟩
      exact ⟨quote, tail, written, .inr is_quote⟩

theorem EndsValue.head?_ne (ends : EndsValue mark) (rest : List Char) :
    (mark :: rest).head? ≠ some '"' ∧ (mark :: rest).head? ≠ some '\'' := by
  rcases ends with rfl | rfl | rfl <;> simp

/-- A scalar is read up to the end of the line or of the item it is. -/
theorem value?_renderScalar (scalar : IsScalar value) (ends : EndsValue mark) (fuel depth : Nat)
    (rest : List Char) :
    value? (fuel + 1) depth ((renderScalar value).toList ++ mark :: rest) = some (value, mark :: rest) := by
  cases scalar with
  | flag value => cases value <;> rfl
  | @natural value small =>
      change value? (fuel + 1) depth ((Nat.repr value).toList ++ mark :: rest) = _
      rw [Nat.toList_repr]
      have noMoment : moment? (Nat.toDigits 10 value ++ mark :: rest) = none := by
        rw [moment?, skipMoment?_numeral (fun _ => isDigit_of_mem_toDigits) ends]
        rfl
      rcases shape : Nat.toDigits 10 value with _ | ⟨first, more⟩
      · exact absurd shape Nat.toDigits_ne_nil
      · have digit : first.isDigit = true := isDigit_of_mem_toDigits (shape ▸ List.mem_cons_self)
        have first_ne {other : Char} : other.isDigit = false → first ≠ other := ne_of_isIn digit
        have read := number?_toDigits small ends rest
        rw [shape] at noMoment read
        rw [List.cons_append] at noMoment read ⊢
        rw [value?, noMoment, read]
        · rfl
        all_goals simp [first_ne]
  | text value =>
      rcases ends.head?_ne rest with ⟨apart, apart'⟩
      have read := text?_renderText apart apart' value
      rcases exists_renderText value with ⟨quote, tail, written, rfl | rfl⟩
      all_goals
        change value? (fuel + 1) depth ((renderText value).toList ++ mark :: rest) = _
        rw [written, List.cons_append] at read ⊢
        rw [value?, read]
        rfl

/-! ## Lists -/

theorem StartsScalar.ne {first other : Char} (starts : StartsScalar first)
    (unlike : ¬StartsScalar other) : first ≠ other := by
  rintro rfl
  exact unlike starts

theorem StartsScalar.skipLines {first : Char} (starts : StartsScalar first) (more : List Char) :
    skipLines false (first :: more) = some (first :: more) := by
  simp [Toml.skipLines, starts.ne, StartsScalar]

theorem items?_lineFeed (fuel depth : Nat) (chars : List Char) :
    items? fuel depth ('\n' :: chars) = items? fuel depth chars := by
  cases fuel with
  | zero => rfl
  | succ fuel => simp [items?, skipLines]

theorem items?_blank (fuel depth : Nat) (chars : List Char) :
    items? fuel depth (' ' :: chars) = items? fuel depth chars := by
  cases fuel with
  | zero => rfl
  | succ fuel => simp [items?, skipLines]

section Items

variable {item : Data} {chars rest : List Char} {fuel depth : Nat}

theorem items?_last (starts : ∃ first more, chars = first :: more ∧ StartsScalar first)
    (read : value? fuel depth chars = some (item, ']' :: rest)) :
    items? (fuel + 1) depth chars = some ([item], rest) := by
  rcases starts with ⟨first, more, rfl, starts⟩
  have first_ne : first ≠ ']' := starts.ne (by simp [StartsScalar])
  simp [items?, starts.skipLines, read, skipLines, first_ne]

theorem items?_cons (starts : ∃ first more, chars = first :: more ∧ StartsScalar first)
    (read : value? fuel depth chars = some (item, ',' :: rest)) :
    items? (fuel + 1) depth chars =
      (items? fuel depth rest).map fun (items, rest) => (item :: items, rest) := by
  rcases starts with ⟨first, more, rfl, starts⟩
  have first_ne : first ≠ ']' := starts.ne (by simp [StartsScalar])
  simp [items?, starts.skipLines, read, skipLines, first_ne]
  cases items? fuel depth rest <;> rfl

def itemLines (items : List Data) : List Char :=
  items.flatMap fun item => "    ".toList ++ (renderScalar item).toList ++ ",\n".toList

theorem toList_join_itemLines (items : List Data) :
    (String.join (items.map fun item => "    " ++ renderScalar item ++ ",\n")).toList =
      itemLines items := by
  rw [String.toList_join, List.flatMap_map, itemLines]
  simp only [String.toList_append]

theorem length_le_itemLines (items : List Data) : items.length ≤ (itemLines items).length := by
  induction items with
  | nil => exact Nat.zero_le _
  | cons item items ih =>
      have line : 1 ≤ ("    ".toList ++ (renderScalar item).toList ++ ",\n".toList).length := by simp
      rw [itemLines, List.flatMap_cons, ← itemLines, List.length_append, List.length_cons]
      omega

/-- The items of a list with a line for each are read up to the closing bracket. -/
theorem items?_itemLines (depth : Nat) {items : List Data} (scalars : ∀ item ∈ items, IsScalar item)
    (enough : items.length < fuel) (rest : List Char) :
    items? fuel depth (itemLines items ++ ']' :: rest) = some (items, rest) := by
  induction items generalizing fuel with
  | nil =>
      obtain ⟨fuel, rfl⟩ := Nat.exists_eq_succ_of_ne_zero (Nat.ne_of_gt enough)
      simp [itemLines, items?, skipLines]
  | cons item items ih =>
      obtain ⟨fuel, rfl⟩ := Nat.exists_eq_succ_of_ne_zero (Nat.ne_of_gt (Nat.zero_lt_of_lt enough))
      have scalar := scalars item List.mem_cons_self
      have others := ih (fun other other_mem => scalars other (List.mem_cons_of_mem _ other_mem))
        (Nat.lt_of_succ_lt_succ enough)
      have line : itemLines (item :: items) ++ ']' :: rest =
          ' ' :: ' ' :: ' ' :: ' ' :: ((renderScalar item).toList ++ ',' :: '\n' ::
            (itemLines items ++ ']' :: rest)) := by
        simp [itemLines]
      -- The value of the item needs a bound of its own, which the bound on the other items leaves.
      obtain ⟨fuel, rfl⟩ := Nat.exists_eq_succ_of_ne_zero
        (Nat.ne_of_gt (Nat.zero_lt_of_lt (Nat.lt_of_succ_lt_succ enough)))
      have read := value?_renderScalar scalar (.inr (.inl rfl)) fuel depth
        ('\n' :: (itemLines items ++ ']' :: rest))
      rw [line, items?_blank, items?_blank, items?_blank, items?_blank, items?_cons _ read,
        items?_lineFeed, others]
      · rfl
      · rcases scalar.exists_renderScalar with ⟨first, more, written, starts⟩
        exact ⟨first, _, by rw [written, List.cons_append], starts⟩

end Items

/-- Values that are written and read back: scalars and lists of scalars. -/
inductive IsPlainValue : Data → Prop
  | scalar {value : Data} (scalar : IsScalar value) : IsPlainValue value
  | list {items : List Data} (scalars : ∀ item ∈ items, IsScalar item) : IsPlainValue (.list items)

/-- A written value starts with a scalar or a bracket, and never with a blank. -/
theorem IsPlainValue.skipBlank_renderValue (plain : IsPlainValue value) (rest : List Char) :
    skipBlank ((renderValue value).toList ++ rest) = (renderValue value).toList ++ rest := by
  cases plain with
  | @scalar value scalar =>
      rcases scalar.exists_renderScalar with ⟨first, more, shape, starts⟩
      have blank : first ≠ ' ' := starts.ne (by simp [StartsScalar])
      have tab : first ≠ '\t' := starts.ne (by simp [StartsScalar])
      rw [scalar.renderValue_eq, shape]
      simp [skipBlank, blank, tab]
  | @list items scalars =>
      rcases items with _ | ⟨item, _ | ⟨second, items⟩⟩
      · simp [renderValue, skipBlank]
      · simp [renderValue, skipBlank]
      · simp [renderValue, skipBlank]

theorem value?_list {items : List Data} {chars rest : List Char} {fuel : Nat}
    (read : items? fuel 1 chars = some (items, rest)) :
    value? (fuel + 1) 0 ('[' :: chars) = some (.list items, rest) := by
  simp [value?, nestingLimit, read]

theorem value?_single {item : Data} (scalar : IsScalar item) (fuel : Nat) (rest : List Char) :
    value? (fuel + 3) 0 ('[' :: ((renderScalar item).toList ++ ']' :: rest)) =
      some (.list [item], rest) := by
  have read := value?_renderScalar scalar (.inr (.inr rfl)) fuel 1 rest
  rcases scalar.exists_renderScalar with ⟨first, more, written, starts⟩
  rw [written, List.cons_append] at read ⊢
  exact value?_list (items?_last ⟨first, _, rfl, starts⟩ read)

theorem value?_itemLines {items : List Data} (scalars : ∀ item ∈ items, IsScalar item) {fuel : Nat}
    (enough : items.length < fuel) (rest : List Char) :
    value? (fuel + 1) 0 ('[' :: '\n' :: (itemLines items ++ ']' :: rest)) = some (.list items, rest) :=
  value?_list ((items?_lineFeed fuel 1 _).trans (items?_itemLines 1 scalars enough rest))

/-- A value is read up to the end of its line. -/
theorem value?_renderValue (plain : IsPlainValue value) {fuel : Nat}
    (enough : (renderValue value).toList.length ≤ fuel) (rest : List Char) :
    value? fuel 0 ((renderValue value).toList ++ '\n' :: rest) = some (value, '\n' :: rest) := by
  cases plain with
  | @scalar value scalar =>
      rw [scalar.renderValue_eq] at enough ⊢
      rcases scalar.exists_renderScalar with ⟨first, more, shape, -⟩
      rw [shape, List.length_cons] at enough
      obtain ⟨fuel, rfl⟩ : ∃ less, fuel = less + 1 := Nat.exists_eq_add_of_le' (by omega)
      exact value?_renderScalar scalar (.inl rfl) fuel 0 rest
  | @list items scalars =>
      rcases items with _ | ⟨item, _ | ⟨second, items⟩⟩
      · have shape : (renderValue (.list [])).toList = ['[', ']'] := rfl
        rw [shape] at enough ⊢
        obtain ⟨fuel, rfl⟩ : ∃ less, fuel = less + 2 := Nat.exists_eq_add_of_le' enough
        exact value?_list rfl
      · have scalar := scalars item List.mem_cons_self
        have shape : (renderValue (.list [item])).toList = '[' :: ((renderScalar item).toList ++ [']']) := by
          simp [renderValue]
        rcases scalar.exists_renderScalar with ⟨first, more, written, -⟩
        have long : 3 ≤ (renderValue (.list [item])).toList.length := by
          rw [shape, written]
          simp
        obtain ⟨fuel, rfl⟩ : ∃ less, fuel = less + 3 := Nat.exists_eq_add_of_le' (Nat.le_trans long enough)
        rw [shape, List.cons_append, List.append_assoc]
        exact value?_single scalar fuel _
      · have shape : (renderValue (.list (item :: second :: items))).toList =
            '[' :: '\n' :: (itemLines (item :: second :: items) ++ [']']) := by
          rw [← toList_join_itemLines]
          simp [renderValue]
        have count := length_le_itemLines (item :: second :: items)
        rw [shape, List.length_cons, List.length_cons, List.length_append] at enough
        obtain ⟨fuel, rfl⟩ : ∃ less, fuel = less + 1 := Nat.exists_eq_add_of_le' (by omega)
        rw [shape, List.cons_append, List.cons_append, List.append_assoc]
        exact value?_itemLines scalars (by omega) _

end Checkout.Toml
