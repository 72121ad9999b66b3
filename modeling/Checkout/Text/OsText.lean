import Checkout.Text.Quoted

/-!
# Texts of the operating system

Names of files, paths, arguments and environment variables are bytes to the system. Most of them are
UTF-8 and stand for a text; of the others `OsText.shown` is what people get to see, in which a
replacement character stands for each stretch of bytes that begins no character.
-/

namespace Checkout

/-- A text of the operating system: its bytes. -/
structure OsText where
  bytes : List UInt8
  deriving DecidableEq, Repr, Inhabited

theorem fromUTF8?_toUTF8 (text : String) : String.fromUTF8? text.toUTF8 = some text := by
  rw [String.fromUTF8?, String.toUTF8_eq_toByteArray, dif_pos text.isValidUTF8]
  rfl

namespace OsText

/-- A text as the system has it. -/
def ofString (text : String) : OsText :=
  ⟨text.toUTF8.data.toList⟩

instance : Coe String OsText := ⟨ofString⟩

instance : Append OsText := ⟨fun left right => ⟨left.bytes ++ right.bytes⟩⟩

instance : Ord OsText := ⟨fun left right => List.compareLex compare left.bytes right.bytes⟩

/-- The slash between the names of a path. -/
def slash : UInt8 := 47

/-- Texts one after the other, with `mark` between them. -/
def intercalate (mark : OsText) (texts : List OsText) : OsText :=
  ⟨List.intercalate mark.bytes (texts.map bytes)⟩

/-- The text that the bytes are the UTF-8 of. -/
def text? (text : OsText) : Option String :=
  String.fromUTF8? ⟨text.bytes.toArray⟩

/-! ## Bytes that are not UTF-8 -/

/-- How many bytes a character has that starts with `lead`. -/
def width (lead : UInt8) : Nat :=
  if lead < 0x80 then 1 else if lead < 0xe0 then 2 else if lead < 0xf0 then 3 else 4

/-- Whether a byte can follow the bytes with which a character begins. -/
def continues : List UInt8 → UInt8 → Bool
  | [0xe0], byte => 0xa0 ≤ byte && byte ≤ 0xbf
  | [0xed], byte => 0x80 ≤ byte && byte ≤ 0x9f
  | [0xf0], byte => 0x90 ≤ byte && byte ≤ 0xbf
  | [0xf4], byte => 0x80 ≤ byte && byte ≤ 0x8f
  | _, byte => 0x80 ≤ byte && byte ≤ 0xbf

/-- The character with these bytes. -/
def character (bytes : List UInt8) : Char :=
  ((String.fromUTF8? ⟨bytes.toArray⟩).bind fun text => text.toList.head?).getD '\ufffd'

/-- A character, or bytes that begin one but do not go on to its end. -/
abbrev Reading := Except (List UInt8) Char

/-- Reads the first byte of a character: what has been read, and the bytes of a character begun. -/
def readFirst (byte : UInt8) : List Reading × List UInt8 :=
  if byte < 0x80 then ([.ok (character [byte])], [])
  else if 0xc2 ≤ byte ∧ byte ≤ 0xf4 then ([], [byte])
  else ([.error [byte]], [])

/-- Reads a byte behind the bytes of a character begun. -/
def readByte : List UInt8 → UInt8 → List Reading × List UInt8
  | [], byte => readFirst byte
  | lead :: begun, byte =>
      if !continues (lead :: begun) byte then
        let (readings, bytes) := readFirst byte
        (.error (lead :: begun) :: readings, bytes)
      else
        let bytes := lead :: begun ++ [byte]
        if bytes.length = width lead then ([.ok (character bytes)], []) else ([], bytes)

/-- Reads bytes behind those of a character begun. -/
def readBytes : List UInt8 → List UInt8 → List Reading
  | [], [] => []
  | begun, [] => [.error begun]
  | begun, byte :: rest =>
      let (readings, begun) := readByte begun byte
      readings ++ readBytes begun rest

/-- The characters of a text, and between them the bytes that are not UTF-8. -/
def readings (text : OsText) : List Reading :=
  readBytes [] text.bytes

/-- The text, with U+FFFD in place of what is not UTF-8. -/
def shown (text : OsText) : String :=
  match text.text? with
  | some text => text
  | none =>
      String.ofList (text.readings.map fun
        | .ok char => char
        | .error _ => '\ufffd')

/-- One byte that is not UTF-8, inside quotes. -/
def escapeByte (byte : UInt8) : List Char :=
  let digit (value : Nat) := (Nat.digitChar value).toUpper
  ['\\', 'x', digit (byte.toNat / 16), digit (byte.toNat % 16)]

/-- The text between double quotes. -/
def quoted (text : OsText) : String :=
  String.ofList ('"' :: text.readings.flatMap (fun
    | .ok char => escapeQuoted char
    | .error bytes => bytes.flatMap escapeByte) ++ ['"'])

/-! ## Texts that are UTF-8 -/

@[simp]
theorem text?_ofString (text : String) : (ofString text).text? = some text :=
  fromUTF8?_toUTF8 text

/-- A text of the system stands for no other text than the one whose UTF-8 it is. -/
theorem text?_eq_some_iff {text : OsText} {string : String} :
    text.text? = some string ↔ ofString string = text := by
  constructor
  · intro reads
    unfold text? String.fromUTF8? at reads
    split at reads
    · obtain rfl := Option.some.inj reads
      rfl
    · exact nomatch reads
  · rintro rfl
    exact text?_ofString string

@[simp]
theorem shown_ofString (text : String) : (ofString text).shown = text := by
  simp [shown]

@[simp]
theorem ofString_inj {left right : String} : ofString left = ofString right ↔ left = right := by
  constructor
  · intro same
    simpa using congrArg text? same
  · exact congrArg ofString

theorem ofString_append (left right : String) :
    ofString (left ++ right) = ofString left ++ ofString right :=
  congrArg mk (by simp [ofString])

theorem compare_eq : (compare : OsText → OsText → Ordering) =
    fun left right => List.compareLex compare left.bytes right.bytes := rfl

instance : Std.TransOrd OsText where
  eq_swap := by
    intro left right
    simp only [compare_eq]
    exact Std.OrientedCmp.eq_swap
  isLE_trans := by
    intro left middle right first second
    simp only [compare_eq] at first second ⊢
    exact Std.TransCmp.isLE_trans first second

instance : Std.LawfulEqOrd OsText where
  eq_of_compare := by
    intro left right same
    simp only [compare_eq] at same
    exact congrArg mk (Std.LawfulEqCmp.eq_of_compare same)

@[simp]
theorem bytes_append (left right : OsText) : (left ++ right).bytes = left.bytes ++ right.bytes := rfl

theorem append_assoc (first second third : OsText) :
    first ++ second ++ third = first ++ (second ++ third) :=
  congrArg mk (List.append_assoc ..)

@[simp]
theorem empty_append (text : OsText) : ofString "" ++ text = text := rfl

@[simp]
theorem bytes_intercalate (mark : OsText) (texts : List OsText) :
    (intercalate mark texts).bytes = List.intercalate mark.bytes (texts.map bytes) := rfl

theorem intercalate_singleton (mark text : OsText) : intercalate mark [text] = text :=
  congrArg mk (by simp)

theorem intercalate_cons_cons (mark first second : OsText) (rest : List OsText) :
    intercalate mark (first :: second :: rest) =
      first ++ mark ++ intercalate mark (second :: rest) :=
  congrArg mk (by simp [List.intercalate_cons_cons])

@[simp]
theorem bytes_slash : (ofString "/").bytes = [slash] := rfl

@[simp]
theorem bytes_empty : (ofString "").bytes = [] := rfl

@[simp]
theorem mk_nil : mk [] = ofString "" := rfl

@[simp]
theorem mk_bytes (text : OsText) : mk text.bytes = text := rfl

@[simp]
theorem mk_eq_empty_iff {bytes : List UInt8} : mk bytes = "" ↔ bytes = [] :=
  ⟨congrArg OsText.bytes, congrArg mk⟩

@[simp]
theorem bytes_eq_nil_iff {text : OsText} : text.bytes = [] ↔ text = "" :=
  mk_eq_empty_iff.symm

example : (⟨[0x63, 0xe2, 0x82, 0x61, 0xff, 0xc3, 0xa9]⟩ : OsText).shown = "c\ufffda\ufffdé" := by
  decide +kernel

end OsText

end Checkout
