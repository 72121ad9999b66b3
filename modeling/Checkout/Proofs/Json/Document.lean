import Checkout.Proofs.Json.Text

/-!
# Documents of JSON read as they were written

Whatever data is written down, it is read back, as long as its numbers are integers: the lines of a list or a
record are told apart by the commas between them, and the blanks that indent them are skipped.
-/

namespace Checkout

namespace Json

variable {reader : Reader} {data : Data} {items : List Data} {members : List (String × Data)} {level fuel : Nat}
  {rest rest' : List Char}

/-! ## Blanks and lines -/

theorem skipBlank_cons {first : Char} (visible : skipBlank [first] = [first]) (rest : List Char) :
    skipBlank (first :: rest) = first :: rest := by
  rw [skipBlank, List.dropWhile_cons] at visible ⊢
  split
  · rename_i blank
    rw [if_pos blank] at visible
    simp at visible
  · rfl

theorem toList_lineStart (level : Nat) : (lineStart level).toList = '\n' :: List.replicate (2 * level) ' ' := by
  rw [lineStart, String.toList_ofList]

theorem skipBlank_lineStart (level : Nat) (chars : List Char) :
    skipBlank ((lineStart level).toList ++ chars) = skipBlank chars := by
  rw [skipBlank, toList_lineStart, List.dropWhile_append_of_pos, skipBlank]
  intro char char_mem
  rcases List.mem_cons.mp char_mem with rfl | indent
  · rfl
  · rw [List.eq_of_mem_replicate indent]
    rfl

theorem value?_lineStart (reader : Reader) (fuel level : Nat) (chars : List Char) :
    value? reader fuel ((lineStart level).toList ++ chars) = value? reader fuel chars := by
  cases fuel with
  | zero => rfl
  | succ fuel => rw [value?, skipBlank_lineStart, value?]

theorem items?_lineStart (reader : Reader) (fuel level : Nat) (chars : List Char) :
    items? reader fuel ((lineStart level).toList ++ chars) = items? reader fuel chars := by
  cases fuel with
  | zero => rfl
  | succ fuel => rw [items?, value?_lineStart, items?]

theorem members?_lineStart (reader : Reader) (fuel level : Nat) (chars : List Char) :
    members? reader fuel ((lineStart level).toList ++ chars) = members? reader fuel chars := by
  cases fuel with
  | zero => rfl
  | succ fuel => rw [members?, skipBlank_lineStart, members?]

theorem EndsNumber.lineStart (level : Nat) (rest : List Char) :
    EndsNumber ((lineStart level).toList ++ rest) := by
  rw [toList_lineStart]
  exact EndsNumber.cons _ (.inr rfl)

theorem toList_block {parts : List String} (nonempty : parts ≠ []) (level : Nat) (opening closing : String) :
    (block level opening closing parts).toList = opening.toList ++ ((lineStart (level + 1)).toList ++
      ((String.intercalate ("," ++ lineStart (level + 1)) parts).toList ++
        ((lineStart level).toList ++ closing.toList))) := by
  obtain ⟨part, others, rfl⟩ := List.exists_cons_of_ne_nil nonempty
  simp [block]

theorem toList_separated (front back : String) (level : Nat) :
    (front ++ ("," ++ lineStart level) ++ back).toList =
      front.toList ++ ',' :: ((lineStart level).toList ++ back.toList) := by
  have comma : ",".toList = [','] := rfl
  simp [comma]

theorem exists_toList_intercalate (separator part : String) (parts : List String) :
    ∃ behind, (String.intercalate separator (part :: parts)).toList = part.toList ++ behind := by
  cases parts with
  | nil => exact ⟨[], by simp⟩
  | cons second parts =>
      exact ⟨(separator ++ String.intercalate separator (second :: parts)).toList,
        by simp [String.intercalate_cons_cons]⟩

/-! ## Integers -/

theorem toList_integer (value : Int) : (toString value).toList =
    if value < 0 then '-' :: Nat.toDigits 10 value.natAbs else Nat.toDigits 10 value.natAbs := by
  cases value with
  | ofNat magnitude =>
      rw [if_neg (by simp)]
      exact Nat.toList_repr
  | negSucc magnitude =>
      rw [if_pos (Int.negSucc_lt_zero magnitude)]
      change ("-" ++ Nat.repr (magnitude + 1)).toList = _
      rw [String.toList_append, Nat.toList_repr]
      rfl

theorem skipBlank_digit {digit : Char} (isDigit : digit.isDigit = true) : skipBlank [digit] = [digit] := by
  have digit_ne {other : Char} : other.isDigit = false → digit ≠ other := Toml.ne_of_isIn isDigit
  simp [skipBlank, digit_ne]

theorem value?_digit {digit : Char} (isDigit : digit.isDigit = true) (reader : Reader) (fuel : Nat)
    (chars : List Char) :
    value? reader (fuel + 1) (digit :: chars) = unsignedNumber? false (digit :: chars) := by
  have digit_ne {other : Char} : other.isDigit = false → digit ≠ other := Toml.ne_of_isIn isDigit
  rw [value?, skipBlank_cons (skipBlank_digit isDigit)]
  split <;> simp_all

/-! ## Values -/

/-- Data whose numbers are integers. -/
inductive Exact : Data → Prop
  | null : Exact .null
  | flag (value : Bool) : Exact (.flag value)
  | integer (value : Int) : Exact (.integer value)
  | text (value : String) : Exact (.text value)
  | list {items : List Data} (each : ∀ item ∈ items, Exact item) : Exact (.list items)
  | record {members : List (String × Data)} (each : ∀ member ∈ members, Exact member.2) :
      Exact (.record members)

/-- Written down at a level, data is read back by a reader, whatever follows that a number cannot go on
with. -/
def ReadsBack (reader : Reader) (level : Nat) (data : Data) : Prop :=
  ∀ fuel rest, 2 * (renderAt level data).toList.length ≤ fuel → EndsNumber rest →
    value? reader fuel ((renderAt level data).toList ++ rest) = some (data, rest)

/-- A written value starts with something visible that does not close a list. -/
theorem Exact.exists_first (exact : Exact data) (level : Nat) :
    ∃ first more, (renderAt level data).toList = first :: more ∧ skipBlank [first] = [first] ∧
      first ≠ ']' := by
  have ofBlock {opening closing : String} {first : Char} (shape : opening.toList = [first])
      (visible : skipBlank [first] = [first]) (opens : first ≠ ']') (parts : List String) :
      ∃ first more, (block level opening closing parts).toList = first :: more ∧
        skipBlank [first] = [first] ∧ first ≠ ']' := by
    rcases eq_or_ne parts [] with rfl | nonempty
    · exact ⟨first, closing.toList, by simp [block, shape], visible, opens⟩
    · exact ⟨first, _, by rw [toList_block nonempty, shape]; rfl, visible, opens⟩
  cases exact with
  | null => exact ⟨'n', _, by rw [renderAt]; rfl, by decide, by decide⟩
  | flag value =>
      cases value
      · exact ⟨'f', _, by rw [renderAt]; rfl, by decide, by decide⟩
      · exact ⟨'t', _, by rw [renderAt]; rfl, by decide, by decide⟩
  | text value => exact ⟨'"', _, by rw [renderAt, toList_quote], by decide, by decide⟩
  | list each =>
      rw [renderAt]
      exact ofBlock rfl (by decide) (by decide) _
  | record each =>
      rw [renderAt]
      exact ofBlock rfl (by decide) (by decide) _
  | integer value =>
      rw [renderAt, toList_integer]
      split
      · exact ⟨'-', _, rfl, by decide, by decide⟩
      · obtain ⟨first, more, shape⟩ := List.exists_cons_of_ne_nil (Nat.toDigits_ne_nil (n := value.natAbs) (b := 10))
        have digit : first.isDigit = true := Toml.isDigit_of_mem_toDigits (shape ▸ List.mem_cons_self)
        exact ⟨first, more, shape, skipBlank_digit digit, Toml.ne_of_isIn digit (by decide)⟩

theorem exists_fuel {chars : List Char} (nonempty : chars ≠ []) (enough : 2 * chars.length ≤ fuel) :
    ∃ less, fuel = less + 1 := by
  have := List.length_pos_iff.mpr nonempty
  exact Nat.exists_eq_succ_of_ne_zero (by omega)

theorem readsBack_integer (level : Nat) (value : Int) : ReadsBack reader level (.integer value) := by
  intro fuel rest enough ends
  rw [renderAt, toList_integer] at *
  have numeral_ne : Nat.toDigits 10 value.natAbs ≠ [] := Nat.toDigits_ne_nil
  obtain ⟨fuel, rfl⟩ := exists_fuel (by split <;> simp [numeral_ne]) enough
  split
  · rename_i negative
    have magnitude := unsignedNumber?_toDigits true value.natAbs ends (by omega)
    rw [List.cons_append, value?, skipBlank_cons (by decide)]
    simp only [magnitude, if_true, Option.some.injEq, Prod.mk.injEq, Data.integer.injEq, and_true]
    omega
  · rename_i natural
    have magnitude := unsignedNumber?_toDigits false value.natAbs ends (by simp)
    obtain ⟨first, more, shape⟩ := List.exists_cons_of_ne_nil numeral_ne
    have digit : first.isDigit = true := Toml.isDigit_of_mem_toDigits (shape ▸ List.mem_cons_self)
    rw [shape, List.cons_append] at magnitude ⊢
    rw [value?_digit digit, magnitude]
    simp only [Bool.false_eq_true, if_false, Option.some.injEq, Prod.mk.injEq, Data.integer.injEq, and_true]
    omega

theorem readsBack_text (plain : reader.text = textBody) (level : Nat) (value : String) :
    ReadsBack reader level (.text value) := by
  intro fuel rest enough ends
  rw [renderAt, toList_quote] at *
  obtain ⟨fuel, rfl⟩ := exists_fuel (List.cons_ne_nil _ _) enough
  rw [List.cons_append, List.append_assoc, List.singleton_append, value?, skipBlank_cons (by decide)]
  simp only [plain, textBody_quoted, Option.map_some, String.ofList_toList]

section Members

variable {item value : Data} {name : String} {tail : List Char}

theorem items?_last (reads : ReadsBack reader level item)
    (enough : 2 * (renderAt level item).toList.length ≤ fuel) (ends : EndsNumber rest)
    (closed : skipBlank rest = ']' :: tail) :
    items? reader (fuel + 1) ((renderAt level item).toList ++ rest) = some ([item], tail) := by
  rw [items?, reads fuel rest enough ends]
  simp only [Option.bind_eq_bind, Option.bind_some, closed]
  rfl

theorem items?_more (reads : ReadsBack reader level item)
    (enough : 2 * (renderAt level item).toList.length ≤ fuel) (ends : EndsNumber rest)
    (goesOn : skipBlank rest = ',' :: tail) (read : items? reader fuel tail = some (items, rest')) :
    items? reader (fuel + 1) ((renderAt level item).toList ++ rest) = some (item :: items, rest') := by
  rw [items?, reads fuel rest enough ends]
  simp only [Option.bind_eq_bind, Option.bind_some, goesOn, read]
  rfl

theorem value?_blank (reader : Reader) (fuel : Nat) (chars : List Char) :
    value? reader fuel (' ' :: chars) = value? reader fuel chars := by
  cases fuel with
  | zero => rfl
  | succ fuel => rw [value?, value?]; rfl

theorem toList_member (name : String) (value : Data) (rest : List Char) :
    (quote name ++ ": " ++ renderAt level value).toList ++ rest =
      '"' :: (name.toList.flatMap escape ++
        '"' :: ':' :: ' ' :: ((renderAt level value).toList ++ rest)) := by
  have colon : ": ".toList = [':', ' '] := rfl
  rw [String.toList_append, String.toList_append, toList_quote, colon]
  simp

theorem members?_last (plain : reader.text = textBody) (reads : ReadsBack (reader.member name) level value)
    (enough : 2 * (renderAt level value).toList.length ≤ fuel) (ends : EndsNumber rest)
    (closed : skipBlank rest = '\x7d' :: tail) :
    members? reader (fuel + 1) ((quote name ++ ": " ++ renderAt level value).toList ++ rest) =
      some ([(name, value)], tail) := by
  rw [toList_member, members?, skipBlank_cons (by decide)]
  simp only [plain, textBody_quoted, Option.bind_eq_bind, Option.bind_some, String.ofList_toList]
  rw [skipBlank_cons (by decide)]
  simp only [value?_blank, reads fuel rest enough ends, Option.bind_some, closed]
  rfl

theorem members?_more (plain : reader.text = textBody) (reads : ReadsBack (reader.member name) level value)
    (enough : 2 * (renderAt level value).toList.length ≤ fuel) (ends : EndsNumber rest)
    (goesOn : skipBlank rest = ',' :: tail) (read : members? reader fuel tail = some (members, rest')) :
    members? reader (fuel + 1) ((quote name ++ ": " ++ renderAt level value).toList ++ rest) =
      some ((name, value) :: members, rest') := by
  rw [toList_member, members?, skipBlank_cons (by decide)]
  simp only [plain, textBody_quoted, Option.bind_eq_bind, Option.bind_some, String.ofList_toList]
  rw [skipBlank_cons (by decide)]
  simp only [value?_blank, reads fuel rest enough ends, Option.bind_some, goesOn, read]
  rfl

end Members

/-- The lines of a list are read as its items. -/
theorem items?_render (fuel : Nat) (nonempty : items ≠ [])
    (each : ∀ item ∈ items, ReadsBack reader level item)
    (enough : 2 * (String.intercalate ("," ++ lineStart level)
      (renderItems level items)).toList.length < fuel) (outer : Nat) (rest : List Char) :
    items? reader fuel ((String.intercalate ("," ++ lineStart level) (renderItems level items)).toList ++
      ((lineStart outer).toList ++ ']' :: rest)) = some (items, rest) := by
  induction items generalizing fuel with
  | nil => exact absurd rfl nonempty
  | cons item others ih =>
      obtain ⟨fuel, rfl⟩ := Nat.exists_eq_succ_of_ne_zero (Nat.ne_zero_of_lt enough)
      have reads := each item List.mem_cons_self
      cases others with
      | nil =>
          simp only [renderItems, String.intercalate_singleton] at enough ⊢
          exact items?_last reads (by omega) (EndsNumber.lineStart outer _)
            (by rw [skipBlank_lineStart, skipBlank_cons (by decide)])
      | cons second others =>
          have further := @ih fuel (by simp) (fun other other_mem => each other (List.mem_cons_of_mem _ other_mem))
          rw [renderItems, renderItems, String.intercalate_cons_cons, ← renderItems, toList_separated] at enough ⊢
          simp only [List.length_append, List.length_cons] at enough
          rw [List.append_assoc, List.cons_append, List.append_assoc]
          refine items?_more reads (by omega) (EndsNumber.cons _ (.inl rfl)) (skipBlank_cons (by decide) _) ?_
          rw [items?_lineStart]
          exact further (by omega)

/-- The lines of a record are read as its members. -/
theorem members?_render (fuel : Nat) (plain : reader.text = textBody) (nonempty : members ≠ [])
    (each : ∀ member ∈ members, ReadsBack (reader.member member.1) level member.2)
    (enough : 2 * (String.intercalate ("," ++ lineStart level)
      (renderMembers level members)).toList.length < fuel) (outer : Nat) (rest : List Char) :
    members? reader fuel ((String.intercalate ("," ++ lineStart level) (renderMembers level members)).toList ++
      ((lineStart outer).toList ++ '\x7d' :: rest)) = some (members, rest) := by
  induction members generalizing fuel with
  | nil => exact absurd rfl nonempty
  | cons member others ih =>
      obtain ⟨name, value⟩ := member
      obtain ⟨fuel, rfl⟩ := Nat.exists_eq_succ_of_ne_zero (Nat.ne_zero_of_lt enough)
      have reads : ReadsBack (reader.member name) level value := each (name, value) List.mem_cons_self
      have value_le : (renderAt level value).toList.length ≤
          (quote name ++ ": " ++ renderAt level value).toList.length := by
        rw [String.toList_append, List.length_append]
        omega
      cases others with
      | nil =>
          simp only [renderMembers, String.intercalate_singleton] at enough ⊢
          exact members?_last plain reads (by omega) (EndsNumber.lineStart outer _)
            (by rw [skipBlank_lineStart, skipBlank_cons (by decide)])
      | cons second others =>
          obtain ⟨other, otherValue⟩ := second
          have further := @ih fuel (by simp) (fun other other_mem => each other (List.mem_cons_of_mem _ other_mem))
          rw [renderMembers, renderMembers, String.intercalate_cons_cons, ← renderMembers,
            toList_separated] at enough ⊢
          simp only [List.length_append, List.length_cons] at enough value_le
          rw [List.append_assoc, List.cons_append, List.append_assoc]
          refine members?_more plain reads (by omega) (EndsNumber.cons _ (.inl rfl)) (skipBlank_cons (by decide) _) ?_
          rw [members?_lineStart]
          exact further (by omega)

theorem value?_list {first : Char} {chars more tail : List Char} (shape : skipBlank chars = first :: more)
    (opens : first ≠ ']') (read : items? reader.item fuel (first :: more) = some (items, tail)) :
    value? reader (fuel + 1) ('[' :: chars) = some (.list items, tail) := by
  rw [value?, skipBlank_cons (by decide)]
  simp only [shape]
  split
  · rename_i closed
    exact absurd (List.cons.inj closed).1 opens
  · rw [read]
    rfl

theorem value?_record {first : Char} {chars more tail : List Char} (shape : skipBlank chars = first :: more)
    (opens : first ≠ '\x7d') (read : members? reader fuel (first :: more) = some (members, tail)) :
    value? reader (fuel + 1) ('\x7b' :: chars) = some (.record members, tail) := by
  rw [value?, skipBlank_cons (by decide)]
  simp only [shape]
  split
  · rename_i closed
    exact absurd (List.cons.inj closed).1 opens
  · rw [read]
    rfl

theorem readsBack_list (level : Nat) (exact : ∀ item ∈ items, Exact item)
    (each : ∀ item ∈ items, ReadsBack reader.item (level + 1) item) : ReadsBack reader level (.list items) := by
  intro fuel rest enough ends
  rw [renderAt] at *
  have opening : "[".toList = ['['] := rfl
  have closing : "]".toList = [']'] := rfl
  cases items with
  | nil =>
      rw [renderItems, block, String.toList_append, opening, closing] at *
      obtain ⟨fuel, rfl⟩ := exists_fuel (by simp) enough
      rfl
  | cons item items =>
      have parts_ne : renderItems (level + 1) (item :: items) ≠ [] := by simp [renderItems]
      simp only [toList_block parts_ne, opening, closing, List.length_append, List.length_cons,
        List.length_nil] at enough ⊢
      obtain ⟨fuel, rfl⟩ : ∃ less, fuel = less + 1 := Nat.exists_eq_succ_of_ne_zero (by omega)
      obtain ⟨first, more, shape, visible, opens⟩ :=
        (exact item List.mem_cons_self).exists_first (level + 1)
      obtain ⟨behind, items_eq⟩ := exists_toList_intercalate ("," ++ lineStart (level + 1))
        (renderAt (level + 1) item) (renderItems (level + 1) items)
      have read := items?_render fuel (List.cons_ne_nil item items) each (by omega) level rest
      rw [renderItems, items_eq, shape] at read ⊢
      simp only [List.append_assoc, List.cons_append, List.nil_append] at read ⊢
      refine value?_list ?_ opens read
      rw [skipBlank_lineStart, skipBlank_cons visible]

theorem readsBack_record (plain : reader.text = textBody) (level : Nat)
    (each : ∀ member ∈ members, ReadsBack (reader.member member.1) (level + 1) member.2) :
    ReadsBack reader level (.record members) := by
  intro fuel rest enough ends
  rw [renderAt] at *
  have opening : "\x7b".toList = ['\x7b'] := rfl
  have closing : "\x7d".toList = ['\x7d'] := rfl
  cases members with
  | nil =>
      rw [renderMembers, block, String.toList_append, opening, closing] at *
      obtain ⟨fuel, rfl⟩ := exists_fuel (by simp) enough
      rfl
  | cons member members =>
      obtain ⟨name, value⟩ := member
      have parts_ne : renderMembers (level + 1) ((name, value) :: members) ≠ [] := by simp [renderMembers]
      simp only [toList_block parts_ne, opening, closing, List.length_append, List.length_cons,
        List.length_nil] at enough ⊢
      obtain ⟨fuel, rfl⟩ : ∃ less, fuel = less + 1 := Nat.exists_eq_succ_of_ne_zero (by omega)
      obtain ⟨behind, members_eq⟩ := exists_toList_intercalate ("," ++ lineStart (level + 1))
        (quote name ++ ": " ++ renderAt (level + 1) value) (renderMembers (level + 1) members)
      have read := members?_render fuel plain (List.cons_ne_nil (name, value) members) each (by omega) level rest
      obtain ⟨more, shape⟩ : ∃ more, (quote name ++ ": " ++ renderAt (level + 1) value).toList = '"' :: more := by
        rw [← List.append_nil (quote name ++ ": " ++ renderAt (level + 1) value).toList, toList_member]
        exact ⟨_, rfl⟩
      rw [renderMembers, members_eq, shape] at read ⊢
      simp only [List.append_assoc, List.cons_append, List.nil_append] at read ⊢
      refine value?_record ?_ (by decide) read
      rw [skipBlank_lineStart, skipBlank_cons (by decide)]

/-- Exact data is read back at every level. -/
theorem Exact.readsBack (exact : Exact data) (level : Nat) : ReadsBack .all level data := by
  induction exact generalizing level with
  | null =>
      intro fuel rest enough ends
      rw [renderAt] at *
      obtain ⟨fuel, rfl⟩ := exists_fuel (by decide) enough
      rfl
  | flag value =>
      intro fuel rest enough ends
      rw [renderAt] at *
      obtain ⟨fuel, rfl⟩ := exists_fuel (by cases value <;> decide) enough
      cases value <;> rfl
  | integer value => exact readsBack_integer level value
  | text value => exact readsBack_text rfl level value
  | @list items each ih => exact readsBack_list level each fun item item_mem => ih item item_mem (level + 1)
  | @record members each ih =>
      exact readsBack_record rfl level fun member member_mem => ih member member_mem (level + 1)

/-- What is read back is read from its whole document, whatever is blank behind it. -/
theorem ReadsBack.document?_render_append {tail : List Char} (reads : ReadsBack reader 0 data)
    (ends : EndsNumber tail) (blank : skipBlank tail = []) :
    document? reader ((render data).toList ++ tail) = some data := by
  have enough : 2 * (renderAt 0 data).toList.length ≤ 2 * ((renderAt 0 data).toList ++ tail).length + 2 := by
    rw [List.length_append]
    omega
  rw [document?, render, reads _ tail enough ends]
  exact if_pos blank

theorem ReadsBack.document?_render (reads : ReadsBack reader 0 data) :
    document? reader (render data).toList = some data := by
  rw [← List.append_nil (render data).toList]
  exact reads.document?_render_append .nil rfl

/-- Exact data is read back from the line feed and the document in front of it. -/
theorem Exact.parse?_render_feed (exact : Exact data) : parse? (render data ++ "\n") = some data := by
  rw [parse?, String.toList_append]
  exact (exact.readsBack 0).document?_render_append (.cons _ (.inr rfl)) rfl

/-- A record is read back by a reader who knows its members. -/
theorem parseKnown?_render {names : List String} (exact : ∀ member ∈ members, Exact member.2)
    (known : ∀ member ∈ members, member.1 ∈ names) :
    parseKnown? names (render (.record members)) = some (.record members) := by
  rw [parseKnown?, OsText.text?_ofString]
  refine ReadsBack.document?_render (readsBack_record rfl 0 ?_)
  intro member member_mem
  rw [Reader.member, if_pos (known member member_mem)]
  exact (exact member member_mem).readsBack 1

/-- Bytes that are not UTF-8 do no harm in a member that the reader does not know. -/
example :
    let document : OsText := "\x7b\"old\":\"" ++ ⟨[0xff]⟩ ++ "\",\"url\":\"u\"\x7d"
    (parseKnown? ["url"] document).isSome = true ∧ parseKnown? ["old"] document = none := by
  decide +kernel

end Json

end Checkout
