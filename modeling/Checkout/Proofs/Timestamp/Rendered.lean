import Checkout.Proofs.Json.Text
import Checkout.Timestamp.Parser
import Mathlib.Algebra.Group.Nat.Defs

/-!
# Points in time read as they were written

A point in time is written with a fixed number of digits for everything but the year, whose digits end at the
hyphen behind them, and the fraction of the second, which ends at the zone. So it is read back to the nanosecond.
-/

namespace Checkout

/-! ## Padded numerals -/

variable {width value : Nat}

theorem toList_padded (width value : Nat) : (padded width value).toList =
    List.replicate (width - (Nat.toDigits 10 value).length) '0' ++ Nat.toDigits 10 value := by
  rw [padded, String.toList_ofList]

theorem isDigit_of_mem_padded {char : Char} (char_mem : char ∈ (padded width value).toList) :
    char.isDigit = true := by
  rw [toList_padded, List.mem_append] at char_mem
  rcases char_mem with zero | digit
  · rw [List.eq_of_mem_replicate zero]
    rfl
  · exact Toml.isDigit_of_mem_toDigits digit

theorem decimal?_padded (width value : Nat) : decimal? (padded width value).toList = some value := by
  have nonempty : (padded width value).toList ≠ [] := by
    rw [toList_padded]
    exact List.append_ne_nil_of_right_ne_nil _ Nat.toDigits_ne_nil
  rw [decimal?_numeral (fun _ => isDigit_of_mem_padded) nonempty, toList_padded, Nat.ofDigitChars_append,
    Nat.ofDigitChars_replicate_zero, Nat.mul_zero, Nat.ofDigitChars_ten_toDigits]

theorem length_padded (positive : 0 < width) (small : value < 10 ^ width) :
    (padded width value).toList.length = width := by
  have := (Nat.length_toDigits_le_iff (by decide) positive).mpr small
  rw [toList_padded, List.length_append, List.length_replicate]
  omega

theorem exists_padded (width value : Nat) :
    ∃ first more, (padded width value).toList = first :: more ∧ first.isDigit = true := by
  cases shape : (padded width value).toList with
  | nil =>
      have read := decimal?_padded width value
      rw [shape] at read
      simp [decimal?] at read
  | cons first more => exact ⟨first, more, rfl, isDigit_of_mem_padded (shape ▸ List.mem_cons_self)⟩

theorem isBlank_of_isDigit {char : Char} (digit : char.isDigit = true) : isBlank char = false := by
  simp only [Char.isDigit, Bool.and_eq_true, decide_eq_true_eq] at digit
  obtain ⟨low, high⟩ := digit
  have low : 48 ≤ char.toNat := low
  have high : char.toNat ≤ 57 := high
  simp only [isBlank, Bool.or_eq_false_iff, Bool.and_eq_false_iff, decide_eq_false_iff_not, beq_eq_false_iff_ne]
  omega

theorem dropBlank_padded (width value : Nat) (rest : List Char) :
    dropBlank ((padded width value).toList ++ rest) = (padded width value).toList ++ rest := by
  obtain ⟨first, more, shape, digit⟩ := exists_padded width value
  rw [shape, List.cons_append, dropBlank, List.dropWhile_cons_of_neg (by simp [isBlank_of_isDigit digit])]

/-- A run of digits ends in front of what is none. -/
theorem takeWhile_padded {rest : List Char} (ends : ∀ char, rest.head? = some char → char.isDigit = false) :
    ((padded width value).toList ++ rest).takeWhile Char.isDigit = (padded width value).toList := by
  rw [List.takeWhile_append_of_pos fun _ => isDigit_of_mem_padded]
  cases rest with
  | nil => simp
  | cons mark rest => rw [List.takeWhile_cons_of_neg (by simp [ends mark rfl]), List.append_nil]

namespace Timestamp

variable {low high : Nat} {rest : List Char}

/-! ## Parts of a point in time -/

theorem number?_padded (positive : 0 < width) (small : value < 10 ^ width) (rest : List Char) :
    number? width ((padded width value).toList ++ rest) = some (value, rest) := by
  have length_eq := length_padded positive small
  have run : (((padded width value).toList ++ rest).take width).takeWhile Char.isDigit =
      (padded width value).toList := by
    rw [List.take_left' length_eq, List.takeWhile_eq_self_iff]
    exact fun _ => isDigit_of_mem_padded
  rw [number?, dropBlank_padded]
  simp only [run, decimal?_padded, Option.map_some, List.drop_left]

theorem numberWithin?_padded (small : value < 100) (atLeast : low ≤ value) (atMost : value ≤ high)
    (rest : List Char) :
    numberWithin? 2 low high ((padded 2 value).toList ++ rest) = some (value, rest) := by
  rw [numberWithin?, number?_padded (by decide) small]
  simp [atLeast, atMost]

theorem separator?_cons {separator : Char} (visible : isBlank separator = false) (rest : List Char) :
    separator? separator (separator :: rest) = some rest := by
  rw [separator?, dropBlank, List.dropWhile_cons_of_neg (by simp [visible])]
  simp

theorem signed?_padded (sign : Int) (value : Nat) {rest : List Char}
    (ends : ∀ char, rest.head? = some char → char.isDigit = false) :
    year?.signed? sign ((padded width value).toList ++ rest) = some (sign * value, rest) := by
  simp only [year?.signed?, takeWhile_padded ends, decimal?_padded, List.drop_left]
  rfl

theorem year?_render (year : Int) {rest : List Char}
    (ends : ∀ char, rest.head? = some char → char.isDigit = false) :
    year? ((renderYear year).toList ++ rest) = some (year, rest) := by
  rw [renderYear]
  split
  · rename_i short
    have small : year.toNat < 10 ^ 4 := by omega
    obtain ⟨first, more, shape, digit⟩ := exists_padded 4 year.toNat
    have read := number?_padded (by decide) small rest
    have first_ne {other : Char} : other.isDigit = false → first ≠ other := Toml.ne_of_isIn digit
    rw [year?, dropBlank_padded]
    rw [shape, List.cons_append] at read ⊢
    split
    · simp_all
    · simp_all
    · rw [read, Option.map_some]
      simp only [Option.some.injEq, Prod.mk.injEq, and_true]
      omega
  · rename_i long
    split
    · rename_i negative
      have minus : "-".toList = ['-'] := rfl
      rw [String.toList_append, minus, List.append_assoc, List.singleton_append, year?, dropBlank,
        List.dropWhile_cons_of_neg (by decide)]
      simp only [signed?_padded (-1) year.natAbs ends, Option.some.injEq, Prod.mk.injEq, and_true]
      omega
    · rename_i natural
      have plus : "+".toList = ['+'] := rfl
      rw [String.toList_append, plus, List.append_assoc, List.singleton_append, year?, dropBlank,
        List.dropWhile_cons_of_neg (by decide)]
      simp only [signed?_padded 1 year.natAbs ends, Option.some.injEq, Prod.mk.injEq, and_true]
      omega

theorem fraction?_padded (positive : 0 < width) (short : width ≤ 9) (small : value < 10 ^ width) {rest : List Char}
    (ends : ∀ char, rest.head? = some char → char.isDigit = false) :
    fraction? ('.' :: ((padded width value).toList ++ rest)) = some (value * 10 ^ (9 - width), rest) := by
  have length_eq := length_padded positive small
  have kept : (padded width value).toList.take 9 = (padded width value).toList :=
    List.take_of_length_le (by omega)
  simp only [fraction?, takeWhile_padded ends, kept, decimal?_padded, Option.map_some, length_eq, List.drop_left']
  rfl

theorem fraction?_render {nanosecond : Nat} (small : nanosecond ≤ 999999999) {rest : List Char}
    (ends : ∀ char, rest.head? = some char → char.isDigit = false ∧ char ≠ '.') :
    fraction? ((renderFraction nanosecond).toList ++ rest) = some (nanosecond, rest) := by
  have digitEnds : ∀ char, rest.head? = some char → char.isDigit = false :=
    fun char char_eq => (ends char char_eq).1
  have point : ".".toList = ['.'] := rfl
  rw [renderFraction]
  split_ifs with zero millis micros
  · cases rest with
    | nil => simp [fraction?, zero]
    | cons mark rest => simp [fraction?, zero, (ends mark rfl).2]
  · rw [String.toList_append, point, List.append_assoc, List.singleton_append,
      fraction?_padded (by decide) (by decide) (by omega) digitEnds]
    simp only [Option.some.injEq, Prod.mk.injEq, and_true]
    omega
  · rw [String.toList_append, point, List.append_assoc, List.singleton_append,
      fraction?_padded (by decide) (by decide) (by omega) digitEnds]
    simp only [Option.some.injEq, Prod.mk.injEq, and_true]
    omega
  · rw [String.toList_append, point, List.append_assoc, List.singleton_append,
      fraction?_padded (by decide) (by decide) (by omega) digitEnds]
    simp

/-! ## Whole points in time -/

theorem toList_render (time : Timestamp) : time.render.toList =
    (renderYear time.date.year).toList ++ ('-' :: ((padded 2 time.date.month).toList ++
      ('-' :: ((padded 2 time.date.day).toList ++ ('T' :: ((padded 2 time.hour).toList ++
        (':' :: ((padded 2 time.minute).toList ++ (':' :: ((padded 2 time.second).toList ++
          ((renderFraction time.nanosecond).toList ++ ['Z']))))))))))) := by
  have hyphen : "-".toList = ['-'] := rfl
  have letter : "T".toList = ['T'] := rfl
  have colon : ":".toList = [':'] := rfl
  have zone : "Z".toList = ['Z'] := rfl
  simp [render, hyphen, letter, colon, zone]

theorem fromZone?_utc {time : Timestamp} (valid : time.valid = true) : fromZone? 0 time = some time := by
  obtain ⟨date, hour, minute, second, nanosecond⟩ := time
  simp only [Timestamp.valid, Bool.and_eq_true, decide_eq_true_eq] at valid
  obtain ⟨⟨⟨⟨dated, hour_le⟩, minute_le⟩, -⟩, -⟩ := valid
  have noWrap : ((hour * 60 + minute : Nat) - (0 : Int)) % 1440 = (hour * 60 + minute : Nat) := by omega
  have atLeast : ¬((hour * 60 + minute : Nat) - (0 : Int)) < 0 := by omega
  have below : ¬1440 ≤ ((hour * 60 + minute : Nat) - (0 : Int)) := by omega
  simp only [fromZone?, noWrap, if_neg atLeast, if_neg below, dated, if_true, Int.toNat_natCast,
    Option.some.injEq, Timestamp.mk.injEq, true_and, and_true]
  omega

theorem daysInMonth_le (year : Int) (month : Nat) : daysInMonth year month ≤ 31 := by
  rw [daysInMonth]
  split_ifs <;> decide

/-- A point in time is read from the text it was written as. -/
theorem parse?_render {time : Timestamp} (valid : time.valid = true) : parse? time.render = some time := by
  have bounds := valid
  simp only [Timestamp.valid, CalendarDate.valid, Bool.and_eq_true, decide_eq_true_eq] at bounds
  obtain ⟨⟨⟨⟨⟨⟨⟨⟨-, month_pos⟩, month_le⟩, day_pos⟩, day_le⟩, hour_le⟩, minute_le⟩, second_le⟩, small⟩ := bounds
  have day_le := day_le.trans (daysInMonth_le _ _)
  have dated : time.date.valid = true := by
    simp only [Timestamp.valid, Bool.and_eq_true] at valid
    exact valid.1.1.1.1
  have hyphen (rest : List Char) : separator? '-' ('-' :: rest) = some rest := separator?_cons (by decide) rest
  have colon (rest : List Char) : separator? ':' (':' :: rest) = some rest := separator?_cons (by decide) rest
  have zoneEnds : ∀ char, ['Z'].head? = some char → char.isDigit = false ∧ char ≠ '.' := by simp
  have month_read := numberWithin?_padded (show time.date.month < 100 by omega) month_pos month_le
  have day_read := numberWithin?_padded (show time.date.day < 100 by omega) day_pos day_le
  have hour_read := numberWithin?_padded (show time.hour < 100 by omega) (Nat.zero_le _) hour_le
  have minute_read := numberWithin?_padded (show time.minute < 100 by omega) (Nat.zero_le _) minute_le
  have second_read := numberWithin?_padded (show time.second < 100 by omega) (Nat.zero_le _) second_le
  have utc : zone? ['Z'] = some (0, []) := rfl
  have nothing : dropBlank [] = [] := rfl
  rw [parse?, toList_render, year?_render _ (by simp)]
  simp only [Option.bind_eq_bind]
  rw [Option.bind_some, hyphen, Option.bind_some, month_read, Option.bind_some, hyphen, Option.bind_some, day_read,
    Option.bind_some]
  change Option.bind (some _) _ = some time
  rw [Option.bind_some, hour_read, Option.bind_some, colon, Option.bind_some, minute_read, Option.bind_some, colon,
    Option.bind_some, second_read, Option.bind_some, fraction?_render small zoneEnds, Option.bind_some, utc,
    Option.bind_some, if_neg (by simp [nothing, dated])]
  exact fromZone?_utc valid

end Timestamp

end Checkout
