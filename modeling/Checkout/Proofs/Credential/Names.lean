import Checkout.Credential.Failures
import Mathlib.Data.List.Forall2
import Mathlib.Data.List.TakeWhile

/-!
# Spellings of failure names

A name may stand between blanks, in any letter case, and with `_` for `-`. The failure of a name is found if
and only if the name is such a spelling of a known one.
-/

namespace Checkout

/-! ## Blanks at the ends -/

theorem dropBlank_append {before chars : List Char} (blank : ∀ char ∈ before, isBlank char = true)
    (starts : ∀ first ∈ chars.head?, isBlank first = false) : dropBlank (before ++ chars) = chars := by
  rw [dropBlank, List.dropWhile_append_of_pos blank]
  rcases chars with _ | ⟨first, chars⟩
  · rfl
  · rw [List.dropWhile_cons_of_neg (by simpa using starts first rfl)]

/-- Trimming takes away what is blank in front of and behind a text that starts and ends visibly. -/
theorem toList_trimBlank {text : String} {before core after : List Char}
    (shape : text.toList = before ++ core ++ after) (front : ∀ char ∈ before, isBlank char = true)
    (back : ∀ char ∈ after, isBlank char = true) (visible : ∀ char ∈ core, isBlank char = false) :
    (trimBlank text).toList = core := by
  rw [trimBlank, String.toList_ofList, shape]
  rcases core with _ | ⟨first, core⟩
  · have blank : ∀ char ∈ before ++ [] ++ after, isBlank char = true := by
      intro char char_mem
      rw [List.append_nil, List.mem_append] at char_mem
      exact char_mem.elim (front char) (back char)
    rw [dropBlank, dropBlank, List.dropWhile_eq_nil_iff.mpr blank]
    rfl
  · have leading : dropBlank (before ++ (first :: core) ++ after) = (first :: core) ++ after := by
      rw [List.append_assoc]
      refine dropBlank_append front ?_
      simpa using visible first List.mem_cons_self
    rw [leading, List.reverse_append, dropBlank_append, List.reverse_reverse]
    · simpa using back
    · intro last last_mem
      exact visible last (List.mem_reverse.mp (List.mem_of_mem_head? last_mem))

theorem exists_trimBlank (text : String) : ∃ before after,
    text.toList = before ++ (trimBlank text).toList ++ after ∧ (∀ char ∈ before, isBlank char = true) ∧
      ∀ char ∈ after, isBlank char = true := by
  refine ⟨text.toList.takeWhile isBlank, ((dropBlank text.toList).reverse.takeWhile isBlank).reverse, ?_, ?_, ?_⟩
  · rw [trimBlank, String.toList_ofList, List.append_assoc, ← List.reverse_append, dropBlank, dropBlank,
      List.takeWhile_append_dropWhile, List.reverse_reverse, List.takeWhile_append_dropWhile]
  · intro char char_mem
    exact List.mem_takeWhile_imp char_mem
  · intro char char_mem
    exact List.mem_takeWhile_imp (List.mem_reverse.mp char_mem)

theorem trimBlank_eq_empty_iff (text : String) :
    trimBlank text = "" ↔ ∀ char ∈ text.toList, isBlank char = true := by
  constructor
  · intro empty
    obtain ⟨before, after, shape, front, back⟩ := exists_trimBlank text
    rw [empty] at shape
    intro char char_mem
    rw [shape] at char_mem
    simp only [String.toList_empty, List.append_nil, List.mem_append] at char_mem
    exact char_mem.elim (front char) (back char)
  · intro blank
    have shape : text.toList = text.toList ++ [] ++ [] := by simp
    have trimmed := toList_trimBlank shape blank (by simp) (by simp)
    simpa using trimmed

/-! ## Letter case -/

theorem toLower_eq_self {char : Char} (other : ¬(65 ≤ char.toNat ∧ char.toNat ≤ 90)) :
    char.toLower = char :=
  dif_neg other

/-- The lower-case form of a character is the character itself or a small letter. -/
theorem toLower_cases (char : Char) :
    char.toLower = char ∨ 97 ≤ char.toLower.toNat ∧ char.toLower.toNat ≤ 122 := by
  by_cases upper : 65 ≤ char.toNat ∧ char.toNat ≤ 90
  · have within : char.val ≥ 'A'.val ∧ char.val ≤ 'Z'.val := upper
    have shifted : char.toLower.toNat = (char.val + ('a'.val - 'A'.val)).toNat :=
      congrArg Char.toNat (dif_pos within)
    have sum : (char.val + ('a'.val - 'A'.val)).toNat = char.toNat + 32 := by
      rw [UInt32.toNat_add]
      change (char.toNat + 32) % 2 ^ 32 = char.toNat + 32
      omega
    omega
  · exact .inl (toLower_eq_self upper)

theorem foldCase_eq (char : Char) :
    foldCase char = if char = '\u212a' then 'k' else char.toLower := by
  have same : char.toNat = 0x212A ↔ char = '\u212a' := by
    rw [← Char.toNat_inj]
    rfl
  simp only [foldCase, same]

/-! ## Spellings -/

namespace CertificateFailures

def nameChars : List Char :=
  "abcdefghijklmnopqrstuvwxyz-".toList

/-- Whether a character may be written where a name has `known`: the letter in either case, which for `k`
includes the sign of the unit Kelvin, and `_` for `-`. -/
def IsWrittenFor (written known : Char) : Prop :=
  written = known ∨ written.toLower = known ∨ (known = 'k' ∧ written = '\u212a') ∨
    (known = '-' ∧ written = '_')

/-- Whether a name is a spelling of a known one, with blanks around it that do not count. -/
def IsSpellingOf (name known : String) : Prop :=
  ∃ before core after, name.toList = before ++ core ++ after ∧ (∀ char ∈ before, isBlank char = true) ∧
    (∀ char ∈ after, isBlank char = true) ∧ List.Forall₂ IsWrittenFor core known.toList

/-- The characters of known names are small, visible and spelled in one way only. -/
theorem nameChar_table : ∀ char ∈ nameChars,
    char.toLower = char ∧ char ≠ '_' ∧ char ≠ '\u212a' ∧ isBlank char = false := by
  have table : nameChars.all (fun char =>
      char.toLower == char && char != '_' && char != '\u212a' && !isBlank char) = true := by decide
  simpa [and_assoc] using table

def spellingChar (char : Char) : Char :=
  if foldCase char = '_' then '-' else foldCase char

theorem toList_spelling (name : String) :
    (spelling name).toList = (trimBlank name).toList.map spellingChar := by
  simp [spelling, keyword, spellingChar]

theorem spellingChar_eq_iff {written known : Char} (nameChar : known ∈ nameChars) :
    spellingChar written = known ↔ IsWrittenFor written known := by
  obtain ⟨lower, noBar, noSign, -⟩ := nameChar_table known nameChar
  constructor
  · intro spelled
    rw [spellingChar, foldCase_eq] at spelled
    by_cases sign : written = '\u212a'
    · rw [if_pos sign, if_neg (by decide)] at spelled
      exact .inr (.inr (.inl ⟨spelled.symm, sign⟩))
    · rw [if_neg sign] at spelled
      split at spelled
      · rename_i bar
        rcases toLower_cases written with same | letter
        · exact .inr (.inr (.inr ⟨spelled.symm, same.symm.trans bar⟩))
        · rw [bar] at letter
          exact absurd letter (by decide)
      · exact .inr (.inl spelled)
  · rintro (rfl | lowered | ⟨rfl, rfl⟩ | ⟨rfl, rfl⟩)
    · rw [spellingChar, foldCase_eq, if_neg noSign, lower, if_neg noBar]
    · have apart : written ≠ '\u212a' := by
        rintro rfl
        exact noSign (lowered.symm.trans (by decide))
      rw [spellingChar, foldCase_eq, if_neg apart, lowered, if_neg noBar]
    · decide
    · decide

theorem IsWrittenFor.visible {written known : Char} (nameChar : known ∈ nameChars)
    (isWritten : IsWrittenFor written known) : isBlank written = false := by
  rcases isWritten with rfl | rfl | ⟨-, rfl⟩ | ⟨-, rfl⟩
  · exact (nameChar_table written nameChar).2.2.2
  · by_contra blank
    rw [Bool.not_eq_false] at blank
    have other : ¬(65 ≤ written.toNat ∧ written.toNat ≤ 90) := by
      simp only [isBlank, Bool.or_eq_true, Bool.and_eq_true, decide_eq_true_eq, beq_iff_eq] at blank
      omega
    obtain ⟨-, -, -, visible⟩ := nameChar_table _ nameChar
    rw [toLower_eq_self other, blank] at visible
    contradiction
  · decide +kernel
  · decide +kernel

theorem map_spellingChar_eq_iff {written known : List Char}
    (known_mem : ∀ char ∈ known, char ∈ nameChars) :
    written.map spellingChar = known ↔ List.Forall₂ IsWrittenFor written known := by
  induction written generalizing known with
  | nil => cases known <;> simp
  | cons first written ih =>
      rcases known with _ | ⟨other, known⟩
      · simp
      · rw [List.map_cons, List.cons.injEq, List.forall₂_cons,
          spellingChar_eq_iff (known_mem other List.mem_cons_self),
          ih fun char char_mem => known_mem char (List.mem_cons_of_mem _ char_mem)]

theorem spelling_eq_iff {name known : String} (known_mem : ∀ char ∈ known.toList, char ∈ nameChars) :
    spelling name = known ↔ IsSpellingOf name known := by
  rw [← String.toList_inj, toList_spelling]
  constructor
  · intro spelled
    obtain ⟨before, after, shape, front, back⟩ := exists_trimBlank name
    exact ⟨before, _, after, shape, front, back, (map_spellingChar_eq_iff known_mem).mp spelled⟩
  · rintro ⟨before, core, after, shape, front, back, isWritten⟩
    have spelled := (map_spellingChar_eq_iff known_mem).mpr isWritten
    -- What is written for the characters of a name is visible, so trimming takes away the ends only.
    have visible : ∀ char ∈ core, isBlank char = false := by
      intro char char_mem
      have nameChar := known_mem (spellingChar char) (spelled ▸ List.mem_map_of_mem char_mem)
      exact ((spellingChar_eq_iff nameChar).mp rfl).visible nameChar
    rw [toList_trimBlank shape front back visible, spelled]

/-- A failure is found under the spellings of its name. -/
theorem ofName?_eq_some_iff {name : String} {failure : CertificateFailures} :
    ofName? name = some failure ↔ ∃ known, (known, failure) ∈ named ∧ IsSpellingOf name known := by
  have chars : ∀ entry ∈ named, ∀ char ∈ entry.1.toList, char ∈ nameChars := by
    have table : named.all (fun entry => entry.1.toList.all nameChars.contains) = true := by decide
    simpa using table
  have distinct : ∀ entry ∈ named, named.find? (fun other => other.1 = entry.1) = some entry := by decide
  rw [ofName?, Option.map_eq_some_iff]
  constructor
  · rintro ⟨⟨known, failure⟩, found, rfl⟩
    have entry_mem := List.mem_of_find?_eq_some found
    have spelled : known = spelling name := by simpa using List.find?_some found
    exact ⟨known, entry_mem, (spelling_eq_iff (chars _ entry_mem)).mp spelled.symm⟩
  · rintro ⟨known, entry_mem, isSpelling⟩
    rw [(spelling_eq_iff (chars _ entry_mem)).mpr isSpelling]
    exact ⟨_, distinct _ entry_mem, rfl⟩

/-- Whether a name is a spelling of the name of a failure. -/
def IsKnown (name : String) : Prop :=
  ∃ entry ∈ named, IsSpellingOf name entry.1

theorem ofName?_eq_none_iff {name : String} : ofName? name = none ↔ ¬IsKnown name := by
  rw [Option.eq_none_iff_forall_ne_some]
  constructor
  · rintro unknown ⟨⟨known, failure⟩, entry_mem, isSpelling⟩
    exact unknown failure (ofName?_eq_some_iff.mpr ⟨known, entry_mem, isSpelling⟩)
  · intro unknown failure found
    obtain ⟨known, entry_mem, isSpelling⟩ := ofName?_eq_some_iff.mp found
    exact unknown ⟨_, entry_mem, isSpelling⟩

end CertificateFailures

end Checkout
