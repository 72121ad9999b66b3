import Checkout.Toml.Printer
import Checkout.Toml.Text
import Mathlib.Data.List.Basic

/-!
# Texts of TOML read as they were written

A text is written in one of five forms, and reading the form gives the text back, whatever follows it. Only
quotes need care: a run of them ends a text over several lines with its last three, so the runs inside have
to be shorter, and what follows must not go on with one more.
-/

namespace Checkout.Toml

/-! ## One character in basic form -/

section Basic

variable {lines : Bool} {char : Char}

theorem basicBody_self (tail : List Char)
    (allowed : isPlain char = true ∨ (lines = true ∧ char = '\n')) (unquoted : char ≠ '"')
    (unescaped : char ≠ '\\') :
    basicBody lines false (char :: tail) = (basicBody lines false tail).map (consChar char) := by
  have ordinary : char ≠ '\r' := by
    rintro rfl
    simp [isPlain] at allowed
  rw [basicBody]
  · simp [allowed]
  · exact unquoted
  · exact unescaped
  · intro rest same
    exact absurd same ordinary

theorem basicBody_shortEscape {letter : Char} (tail : List Char)
    (escape : shortEscape? letter = some char) :
    basicBody lines false ('\\' :: letter :: tail) =
      (basicBody lines false tail).map (consChar char) := by
  have letter_ne : letter ≠ ' ' ∧ letter ≠ '\t' ∧ letter ≠ '\n' ∧ letter ≠ '\r' ∧ letter ≠ 'u' ∧
      letter ≠ 'U' := by
    refine ⟨?_, ?_, ?_, ?_, ?_, ?_⟩ <;> rintro rfl <;> simp [shortEscape?] at escape
  rcases letter_ne with ⟨blank, tab, feed, carriage, short, long⟩
  have inLine : endsLine (letter :: tail) = false := by
    simp [endsLine, skipBlank, blank, tab, feed, carriage]
  simp [basicBody, inLine, escape, short, long]

theorem basicBody_codePoint {a b c d : Char} (tail : List Char)
    (escape : codePoint? [a, b, c, d] = some char) :
    basicBody lines false ('\\' :: 'u' :: a :: b :: c :: d :: tail) =
      (basicBody lines false tail).map (consChar char) := by
  have inLine : endsLine ('u' :: a :: b :: c :: d :: tail) = false := by
    simp [endsLine, skipBlank]
  simp [basicBody, inLine, escape]

/-- The escapes of control characters, of which there are few. -/
theorem controlEscape_table : ∀ code < 128, needsEscape (Char.ofNat code) = true →
    (controlEscape (Char.ofNat code)).take 2 = ['\\', 'u'] ∧
      (controlEscape (Char.ofNat code)).length = 6 ∧
      codePoint? ((controlEscape (Char.ofNat code)).drop 2) = some (Char.ofNat code) ∧
      '\n' ∉ controlEscape (Char.ofNat code) := by
  decide

theorem controlEscape_entry (escaped : needsEscape char = true) :
    (controlEscape char).take 2 = ['\\', 'u'] ∧ (controlEscape char).length = 6 ∧
      codePoint? ((controlEscape char).drop 2) = some char ∧ '\n' ∉ controlEscape char := by
  have small : char.toNat < 128 := by
    simp only [needsEscape, Bool.or_eq_true, Bool.and_eq_true, decide_eq_true_eq] at escaped
    omega
  have entry := controlEscape_table char.toNat small
  rw [Char.ofNat_toNat] at entry
  exact entry escaped

theorem controlEscape_eq (escaped : needsEscape char = true) :
    ∃ a b c d, controlEscape char = ['\\', 'u', a, b, c, d] ∧
      codePoint? [a, b, c, d] = some char := by
  rcases controlEscape_entry escaped with ⟨front, size, code, -⟩
  have width : ((controlEscape char).drop 2).length = 4 := by
    rw [List.length_drop, size]
  rw [← List.take_append_drop 2 (controlEscape char), front]
  match digits : (controlEscape char).drop 2, width with
  | [a, b, c, d], _ => exact ⟨a, b, c, d, rfl, digits ▸ code⟩

theorem escapeBasic_cons (unquoted : char ≠ '"') (bearable quotes : Nat) (rest : List Char) :
    escapeBasic lines bearable quotes (char :: rest) =
      escapeBasic lines 0 0 [char] ++ escapeBasic lines bearable 0 rest := by
  simp [escapeBasic, unquoted]

theorem isPlain_of_not_needsEscape (free : needsEscape char = false) (inLine : char ≠ '\n') :
    isPlain char = true := by
  simp only [needsEscape, Bool.or_eq_false_iff, Bool.and_eq_false_imp, Bool.and_eq_true,
    decide_eq_true_eq, decide_eq_false_iff_not, ne_eq, isPlain, Bool.or_eq_true] at free ⊢
  by_cases tab : char = '\t'
  · exact .inl tab
  · right
    by_contra outside
    have low : char.toNat < 32 := by omega
    exact free.1 ⟨low, tab⟩ inLine

theorem basicBody_escapeBasic_single (unquoted : char ≠ '"') (tail : List Char) :
    basicBody lines false (escapeBasic lines 0 0 [char] ++ tail) =
      (basicBody lines false tail).map (consChar char) := by
  simp only [escapeBasic, if_neg unquoted, List.append_nil]
  split_ifs with backspace tab feed goesOn formFeed carriage backslash control
  · exact basicBody_shortEscape tail (by rw [backspace]; rfl)
  · exact basicBody_shortEscape tail (by rw [tab]; rfl)
  · rw [feed]
    exact basicBody_self tail (.inr ⟨goesOn, rfl⟩) (by decide) (by decide)
  · exact basicBody_shortEscape tail (by rw [feed]; rfl)
  · exact basicBody_shortEscape tail (by rw [formFeed]; rfl)
  · exact basicBody_shortEscape tail (by rw [carriage]; rfl)
  · exact basicBody_shortEscape tail (by rw [backslash]; rfl)
  · rcases controlEscape_eq control with ⟨a, b, c, d, written, escape⟩
    rw [written]
    exact basicBody_codePoint tail escape
  · have plain := isPlain_of_not_needsEscape (Bool.not_eq_true _ ▸ control) feed
    exact basicBody_self tail (.inl plain) unquoted backslash

theorem basicBody_line (chars rest : List Char) :
    basicBody false false (escapeBasic false 0 0 chars ++ '"' :: rest) = some (chars, rest) := by
  induction chars with
  | nil => rw [escapeBasic, List.nil_append, basicBody.eq_def]; rfl
  | cons char chars ih =>
      by_cases quote : char = '"'
      · have written : escapeBasic false 0 0 (char :: chars) =
            '\\' :: '"' :: escapeBasic false 0 0 chars := by
          simp [escapeBasic, quote]
        rw [written, List.cons_append, List.cons_append, basicBody_shortEscape _ rfl, ih, quote]
        rfl
      · rw [escapeBasic_cons quote, List.append_assoc, basicBody_escapeBasic_single quote, ih]
        rfl

/-- A quote inside of a text over several lines, unless two more follow. -/
theorem basicBody_quote {tail : List Char} (few : ∀ rest, tail ≠ '"' :: '"' :: rest) :
    basicBody true false ('"' :: tail) = (basicBody true false tail).map (consChar '"') := by
  rw [basicBody]
  · rfl
  · exact fun rest => few ('"' :: '"' :: rest)
  · exact fun rest => few ('"' :: rest)
  · exact few

/-- Quotes may stay as they are only at the front of what is written. -/
theorem exists_escapeBasic_cons (lines : Bool) {bearable quotes : Nat} (unborne : char ≠ '"' ∨ bearable ≤ quotes)
    (rest : List Char) :
    ∃ first more, escapeBasic lines bearable quotes (char :: rest) = first :: more ∧ first ≠ '"' := by
  by_cases quote : char = '"'
  · have full : ¬quotes < bearable := Nat.not_lt.mpr (unborne.resolve_left fun other => other quote)
    rw [escapeBasic, if_pos quote, if_neg full]
    exact ⟨'\\', _, rfl, by decide⟩
  · simp only [escapeBasic, if_neg quote]
    split_ifs
    all_goals first | exact ⟨_, _, rfl, by decide⟩ | exact ⟨_, _, rfl, quote⟩

/-- Behind a quote that stays as it is, two more do so only at the end of the text. -/
theorem escapeBasic_ne_quotes {quotes : Nat} {next : Char} {chars : List Char}
    (inside : next ≠ '"' ∨ 1 ≤ quotes ∨ chars ≠ []) (tail more : List Char) :
    escapeBasic true 2 (quotes + 1) (next :: chars) ++ tail ≠ '"' :: '"' :: more := by
  intro starts
  by_cases unborne : next ≠ '"' ∨ 2 ≤ quotes + 1
  · rcases exists_escapeBasic_cons true unborne chars with ⟨first, rest, written, unquoted⟩
    rw [written, List.cons_append, List.cons.injEq] at starts
    exact unquoted starts.1
  · rw [not_or, not_not, Nat.not_le] at unborne
    rcases unborne with ⟨rfl, borne⟩
    rcases chars with _ | ⟨third, chars⟩
    · simp at inside
      omega
    · have full : third ≠ '"' ∨ 2 ≤ quotes + 1 + 1 := .inr (Nat.le_add_left 2 quotes)
      rcases exists_escapeBasic_cons true full chars with ⟨first, rest, written, unquoted⟩
      rw [escapeBasic, if_pos rfl, if_pos borne, written, List.cons_append, List.cons_append,
        List.cons.injEq, List.cons.injEq] at starts
      exact unquoted starts.2.1

/-- A basic text over several lines is read up to the last quote of the run that ends it. -/
theorem basicBody_lines {rest : List Char} (apart : rest.head? ≠ some '"') (quotes : Nat)
    (chars : List Char) :
    basicBody true false (escapeBasic true 2 quotes chars ++ '"' :: '"' :: '"' :: rest) =
      some (chars, rest) := by
  have single : ∀ more, rest ≠ '"' :: more := by
    rintro more rfl
    exact apart rfl
  induction chars generalizing quotes with
  | nil =>
      rw [escapeBasic, List.nil_append, basicBody]
      · rfl
      · exact fun more => single _
      · exact single
  | cons char chars ih =>
      by_cases quote : char = '"'
      · subst quote
        by_cases bearable : quotes < 2
        · rw [escapeBasic, if_pos rfl, if_pos bearable, List.cons_append]
          -- At the end of the text the reader looks at its last quotes and the closing ones together.
          rcases chars with _ | ⟨next, chars⟩
          · rw [escapeBasic, List.nil_append, basicBody]
            · rfl
            · exact single
          · by_cases inside : next ≠ '"' ∨ 1 ≤ quotes ∨ chars ≠ []
            · rw [basicBody_quote (escapeBasic_ne_quotes inside _), ih]
              rfl
            · simp only [not_or, not_not, Nat.not_le, Nat.lt_one_iff] at inside
              rcases inside with ⟨rfl, rfl, rfl⟩
              rfl
        · rw [escapeBasic, if_pos rfl, if_neg bearable, List.cons_append, List.cons_append,
            basicBody_shortEscape _ rfl, ih]
          rfl
      · rw [escapeBasic_cons quote, List.append_assoc, basicBody_escapeBasic_single quote, ih]
        rfl

end Basic

/-! ## Literal form -/

section Literal

variable {mark : Char}

theorem go_le_go (mark : Char) {fewer more : Nat} (le : fewer ≤ more) (chars : List Char) :
    longestRun.go mark fewer chars ≤ longestRun.go mark more chars := by
  induction chars generalizing fewer more with
  | nil => exact le
  | cons char chars ih =>
      rw [longestRun.go, longestRun.go]
      split_ifs
      · exact ih (Nat.succ_le_succ le)
      · omega

theorem le_go (mark : Char) (current : Nat) (chars : List Char) :
    current ≤ longestRun.go mark current chars := by
  induction chars generalizing current with
  | nil => exact Nat.le_refl current
  | cons char chars ih =>
      rw [longestRun.go]
      split_ifs
      · exact Nat.le_trans (Nat.le_succ current) (ih (current + 1))
      · exact Nat.le_max_left _ _

theorem longestRun_le_cons (mark char : Char) (chars : List Char) :
    longestRun mark chars ≤ longestRun mark (char :: chars) := by
  rw [longestRun, longestRun, longestRun.go]
  split_ifs
  · exact go_le_go mark (Nat.zero_le 1) chars
  · exact Nat.le_max_right _ _

theorem notMem_of_longestRun_eq_zero {chars : List Char} (none : longestRun mark chars = 0) :
    mark ∉ chars := by
  induction chars with
  | nil => exact List.not_mem_nil
  | cons char chars ih =>
      have later : longestRun mark chars = 0 :=
        Nat.le_zero.mp (none ▸ longestRun_le_cons mark char chars)
      rw [List.mem_cons, not_or]
      refine ⟨?_, ih later⟩
      rintro rfl
      rw [longestRun, longestRun.go, if_pos rfl] at none
      have one := le_go mark 1 chars
      rw [none] at one
      exact absurd one (by decide)

theorem three_le_longestRun (mark : Char) (chars : List Char) :
    3 ≤ longestRun mark (mark :: mark :: mark :: chars) := by
  simp only [longestRun, longestRun.go, if_true]
  exact le_go mark 3 chars

theorem literalBody_self {lines : Bool} {char : Char} (tail : List Char)
    (allowed : isPlain char = true ∨ (lines = true ∧ char = '\n')) (unquoted : char ≠ '\'') :
    literalBody lines (char :: tail) = (literalBody lines tail).map (consChar char) := by
  have ordinary : char ≠ '\r' := by
    rintro rfl
    simp [isPlain] at allowed
  rw [literalBody]
  · simp [allowed]
  · exact unquoted
  · intro rest same
    exact absurd same ordinary

theorem literalBody_line {chars : List Char} (plain : ∀ char ∈ chars, isPlain char = true)
    (unquoted : '\'' ∉ chars) (rest : List Char) :
    literalBody false (chars ++ '\'' :: rest) = some (chars, rest) := by
  induction chars with
  | nil => rw [List.nil_append, literalBody.eq_def]; rfl
  | cons char chars ih =>
      rw [List.mem_cons, not_or] at unquoted
      rw [List.cons_append, literalBody_self _ (.inl (plain char List.mem_cons_self)) (Ne.symm unquoted.1),
        ih (fun other other_mem => plain other (List.mem_cons_of_mem _ other_mem)) unquoted.2]
      rfl

theorem literalBody_quote {tail : List Char} (few : ∀ rest, tail ≠ '\'' :: '\'' :: rest) :
    literalBody true ('\'' :: tail) = (literalBody true tail).map (consChar '\'') := by
  rw [literalBody]
  · rfl
  · exact fun rest => few ('\'' :: '\'' :: rest)
  · exact fun rest => few ('\'' :: rest)
  · exact few

/-- A literal text over several lines is read up to the last quote of the run that ends it. -/
theorem literalBody_lines {chars rest : List Char} (apart : rest.head? ≠ some '\'')
    (plain : ∀ char ∈ chars, isPlain char = true ∨ char = '\n')
    (short : longestRun '\'' chars ≤ 2) :
    literalBody true (chars ++ '\'' :: '\'' :: '\'' :: rest) = some (chars, rest) := by
  have single : ∀ more, rest ≠ '\'' :: more := by
    rintro more rfl
    exact apart rfl
  induction chars with
  | nil =>
      rw [List.nil_append, literalBody]
      · rfl
      · exact fun more => single _
      · exact single
  | cons char chars ih =>
      have others := ih (fun other other_mem => plain other (List.mem_cons_of_mem _ other_mem))
        (Nat.le_trans (longestRun_le_cons _ _ _) short)
      rw [List.cons_append]
      by_cases quote : char = '\''
      · subst quote
        -- Up to two quotes end the text in front of the closing ones; elsewhere a third would follow them.
        rcases chars with _ | ⟨next, _ | ⟨third, chars⟩⟩
        · rw [List.nil_append, literalBody]
          · rfl
          · exact single
        · by_cases second : next = '\''
          · subst second
            rfl
          · rw [literalBody_quote (by simp [second]), others]
            rfl
        · rw [literalBody_quote, others]
          · rfl
          · intro more starts
            simp only [List.cons_append, List.cons.injEq] at starts
            rcases starts with ⟨rfl, rfl, -⟩
            have := three_le_longestRun '\'' chars
            omega
      · have allowed : isPlain char = true ∨ (true = true ∧ char = '\n') := by
          simpa using plain char List.mem_cons_self
        rw [literalBody_self _ allowed quote, others]
        rfl

end Literal

/-! ## Any form -/

section Forms

variable {chars rest : List Char}

theorem lineText?_of_text? {quote : Char} {tail : List Char}
    (single : ∀ more, tail ≠ quote :: quote :: more) : text? (quote :: tail) = lineText? (quote :: tail) := by
  rw [text?]
  · rintro more starts
    rw [List.cons.injEq] at starts
    exact single more (starts.1 ▸ starts.2)
  · rintro more starts
    rw [List.cons.injEq] at starts
    exact single more (starts.1 ▸ starts.2)

theorem text?_basic (apart : rest.head? ≠ some '"') (chars : List Char) :
    text? (basic chars ++ rest) = some (String.ofList chars, rest) := by
  rw [basic, List.append_assoc, List.append_assoc, List.singleton_append, List.singleton_append,
    lineText?_of_text?, lineText?, basicBody_line]
  · rfl
  · intro more starts
    cases chars with
    | nil =>
        rw [escapeBasic, List.nil_append, List.cons.injEq] at starts
        exact apart (by rw [starts.2]; rfl)
    | cons char chars =>
        have full : char ≠ '"' ∨ 0 ≤ 0 := .inr (Nat.le_refl 0)
        rcases exists_escapeBasic_cons false full chars with ⟨first, others, written, unquoted⟩
        rw [written, List.cons_append, List.cons.injEq] at starts
        exact unquoted starts.1

theorem text?_literal (nonempty : chars ≠ []) (plain : ∀ char ∈ chars, isPlain char = true)
    (unquoted : '\'' ∉ chars) (rest : List Char) :
    text? (literal chars ++ rest) = some (String.ofList chars, rest) := by
  rw [literal, List.append_assoc, List.append_assoc, List.singleton_append, List.singleton_append,
    lineText?_of_text?, lineText?, literalBody_line plain unquoted]
  · rfl
  · intro more starts
    cases chars with
    | nil => exact nonempty rfl
    | cons char chars =>
        rw [List.cons_append, List.cons.injEq] at starts
        exact unquoted (starts.1 ▸ List.mem_cons_self)

theorem skipLineEnd_append {front : List Char} {mark : Char} (inLine : '\n' ∉ front)
    (feed : mark ≠ '\n') (carriage : mark ≠ '\r') :
    skipLineEnd (front ++ mark :: rest) = front ++ mark :: rest := by
  rw [skipLineEnd.eq_def]
  split
  · rename_i more starts
    cases front with
    | nil => exact absurd (List.cons.inj starts).1 feed
    | cons first front => simp [(List.cons.inj starts).1] at inLine
  · rename_i more starts
    rcases front with _ | ⟨first, _ | ⟨second, front⟩⟩
    · exact absurd (List.cons.inj starts).1 carriage
    · exact absurd (List.cons.inj (List.cons.inj starts).2).1 feed
    · simp [(List.cons.inj (List.cons.inj starts).2).1] at inLine
  · rfl

/-- The line end behind opening quotes does not count, and is there if it could be missed. -/
theorem skipLineEnd_opening {written : List Char} {mark : Char}
    (inLine : '\n' ∉ chars → '\n' ∉ written) (feed : mark ≠ '\n') (carriage : mark ≠ '\r') :
    skipLineEnd (opening chars ++ (written ++ mark :: rest)) = written ++ mark :: rest := by
  rw [opening]
  split_ifs with broken
  · rfl
  · rw [List.nil_append]
    exact skipLineEnd_append (inLine (by simpa using broken)) feed carriage

theorem notMem_escapeBasic_single {lines : Bool} {char : Char} (unquoted : char ≠ '"')
    (inLine : char ≠ '\n') : '\n' ∉ escapeBasic lines 0 0 [char] := by
  simp only [escapeBasic, if_neg unquoted, if_neg inLine, List.append_nil]
  split_ifs with backspace tab formFeed carriage backslash control
  · decide
  · decide
  · decide
  · decide
  · decide
  · exact (controlEscape_entry control).2.2.2
  · simpa using inLine.symm

theorem notMem_escapeBasic {lines : Bool} {bearable quotes : Nat} (inLine : '\n' ∉ chars) :
    '\n' ∉ escapeBasic lines bearable quotes chars := by
  induction chars generalizing quotes with
  | nil => exact List.not_mem_nil
  | cons char chars ih =>
      rw [List.mem_cons, not_or] at inLine
      by_cases quote : char = '"'
      · rw [escapeBasic, if_pos quote]
        split_ifs <;> simp [ih inLine.2]
      · rw [escapeBasic_cons quote, List.mem_append, not_or]
        exact ⟨notMem_escapeBasic_single quote (Ne.symm inLine.1), ih inLine.2⟩

theorem text?_basicLines (apart : rest.head? ≠ some '"') (chars : List Char) :
    text? (basicLines chars ++ rest) = some (String.ofList chars, rest) := by
  simp only [basicLines, List.append_assoc, List.cons_append, List.nil_append, text?]
  rw [skipLineEnd_opening notMem_escapeBasic (by decide) (by decide), basicBody_lines apart]
  rfl

theorem text?_literalLines (apart : rest.head? ≠ some '\'')
    (plain : ∀ char ∈ chars, isPlain char = true ∨ char = '\n')
    (short : longestRun '\'' chars ≤ 2) :
    text? (literalLines chars ++ rest) = some (String.ofList chars, rest) := by
  simp only [literalLines, List.append_assoc, List.cons_append, List.nil_append, text?]
  rw [skipLineEnd_opening id (by decide) (by decide), literalBody_lines apart plain short]
  rfl

/-- A text is read as it was written, if what follows it is no quote. -/
theorem text?_renderText (apart : rest.head? ≠ some '"') (apart' : rest.head? ≠ some '\'')
    (text : String) : text? ((renderText text).toList ++ rest) = some (text, rest) := by
  have plain_of {char : Char} (controls : text.toList.any needsEscape = false)
      (char_mem : char ∈ text.toList) : isPlain char = true ∨ char = '\n' := by
    rw [List.any_eq_false] at controls
    by_cases feed : char = '\n'
    · exact .inr feed
    · exact .inl (isPlain_of_not_needsEscape (by simpa using controls char char_mem) feed)
  simp only [renderText, Bool.and_eq_true, Bool.not_eq_true', decide_eq_true_eq, String.toList_ofList]
  split_ifs with easy free mild few broken
  · rw [text?_basic apart, String.ofList_toList]
  · rcases free with ⟨⟨controls, none⟩, feeds⟩
    have inLine : '\n' ∉ text.toList := by simpa using feeds
    rw [text?_literal, String.ofList_toList]
    · rintro empty
      apply easy
      rw [empty]
      exact ⟨⟨⟨rfl, rfl⟩, rfl⟩, rfl⟩
    · intro char char_mem
      refine (plain_of controls char_mem).resolve_right ?_
      rintro rfl
      exact inLine char_mem
    · exact notMem_of_longestRun_eq_zero none
  · rw [text?_basicLines apart, String.ofList_toList]
  · rw [text?_literalLines apart' (fun char char_mem => plain_of few.1 char_mem) few.2,
      String.ofList_toList]
  · rw [text?_basicLines apart, String.ofList_toList]
  · rw [text?_basic apart, String.ofList_toList]

/-- A written text starts with a quote of either kind. -/
theorem exists_renderText (text : String) :
    ∃ quote tail, (renderText text).toList = quote :: tail ∧ (quote = '"' ∨ quote = '\'') := by
  simp only [renderText, String.toList_ofList]
  split_ifs
  all_goals first
    | exact ⟨'"', _, rfl, .inl rfl⟩
    | exact ⟨'\'', _, rfl, .inr rfl⟩

end Forms

end Checkout.Toml
