import Checkout.CommandLine.Console
import Checkout.Proofs.Settings.Saved

/-!
# Lines of standard input

What is read from the console when standard input is the UTF-8 form of a text: the lines of the text, one
after another, and nothing once they are used up.
-/

namespace Checkout.CommandLine

/-- The lines of some characters, each with its line feed. Only the last one may lack it. -/
def linesOf : List Char → List (List Char)
  | [] => []
  | char :: rest =>
      if char = '\n' then [char] :: linesOf rest
      else match linesOf rest with
        | [] => [[char]]
        | line :: others => (char :: line) :: others

def lines (text : String) : List String :=
  (linesOf text.toList).map String.ofList

/-- The characters behind the first line. -/
def behindLine (chars : List Char) : List Char :=
  (chars.dropWhile (· ≠ '\n')).tail

/-- What is left of a text behind its first line. -/
def behind (text : String) : String :=
  String.ofList (behindLine text.toList)

/-- The bytes of some characters. -/
def encoded (chars : List Char) : List UInt8 :=
  chars.flatMap String.utf8EncodeChar

theorem ne_nil_of_mem_linesOf {chars line : List Char} (listed : line ∈ linesOf chars) : line ≠ [] := by
  induction chars generalizing line with
  | nil => simp [linesOf] at listed
  | cons char rest ih =>
      rw [linesOf] at listed
      split_ifs at listed with feed
      · rcases List.mem_cons.mp listed with rfl | later
        · simp
        · exact ih later
      · cases found : linesOf rest with
        | nil => simp_all
        | cons first others =>
            rw [found] at ih listed
            rcases List.mem_cons.mp listed with rfl | later
            · simp
            · exact ih (List.mem_cons_of_mem _ later)

theorem flatten_linesOf (chars : List Char) : (linesOf chars).flatten = chars := by
  induction chars with
  | nil => rfl
  | cons char rest ih =>
      rw [linesOf]
      split_ifs
      · rw [List.flatten_cons, ih]
        rfl
      · cases found : linesOf rest <;> simp_all

theorem linesOf_behindLine (chars : List Char) : linesOf (behindLine chars) = (linesOf chars).tail := by
  induction chars with
  | nil => rfl
  | cons char rest ih =>
      by_cases feed : char = '\n'
      · simp [behindLine, linesOf, feed]
      · have same : behindLine (char :: rest) = behindLine rest := by simp [behindLine, feed]
        rw [same, ih, linesOf, if_neg feed]
        cases linesOf rest <;> rfl

theorem ofNat_ne_feed {code : Nat} (high : 128 ≤ code) (byte : code < 256) :
    (10 : UInt8) ≠ UInt8.ofNat code := by
  intro same
  have values := congrArg UInt8.toNat same
  rw [UInt8.toNat_ofNat_of_lt' byte] at values
  have ten : (10 : UInt8).toNat = 10 := rfl
  omega

/-- Only the line feed has its byte in its form: the bytes of longer forms are at least 128. -/
theorem eq_feed_of_mem {char : Char} (feed : (10 : UInt8) ∈ String.utf8EncodeChar char) :
    char = '\n' := by
  by_cases single : char.val.toNat ≤ 127
  · simp only [String.utf8EncodeChar, if_pos single, List.mem_singleton] at feed
    have code := congrArg UInt8.toNat feed
    rw [UInt8.toNat_ofNat_of_lt' (show char.val.toNat < 256 by omega)] at code
    exact Char.ext (UInt32.toNat_inj.mp code.symm)
  · have apart (low : Nat) : (10 : UInt8) ≠ UInt8.ofNat (low % 64 + 128) :=
      ofNat_ne_feed (by omega) (by omega)
    simp only [String.utf8EncodeChar, if_neg single] at feed
    split_ifs at feed
    all_goals
      simp only [List.mem_cons, List.not_mem_nil, or_false, apart] at feed
      exact absurd feed (ofNat_ne_feed (by omega) (by omega))

theorem splitLine_append {front : List UInt8} (free : (10 : UInt8) ∉ front) (back : List UInt8) :
    Console.splitLine (front ++ back) =
      (front ++ (Console.splitLine back).1, (Console.splitLine back).2) := by
  induction front with
  | nil => rfl
  | cons byte rest ih =>
      rw [List.mem_cons, not_or] at free
      rw [List.cons_append, Console.splitLine, if_neg (Ne.symm free.1), ih free.2]
      rfl

theorem splitLine_encoded (chars : List Char) :
    Console.splitLine (encoded chars) =
      (encoded ((linesOf chars).head?.getD []), encoded (behindLine chars)) := by
  induction chars with
  | nil => rfl
  | cons char rest ih =>
      have split : encoded (char :: rest) = String.utf8EncodeChar char ++ encoded rest :=
        List.flatMap_cons
      rw [split]
      by_cases feed : char = '\n'
      · subst feed
        have feed : String.utf8EncodeChar '\n' = [10] := rfl
        simp [Console.splitLine, linesOf, behindLine, encoded, feed]
      · rw [splitLine_append (feed ∘ eq_feed_of_mem), ih, linesOf,
          if_neg feed]
        have same : behindLine (char :: rest) = behindLine rest := by simp [behindLine, feed]
        rw [same]
        cases found : linesOf rest with
        | nil => simp [encoded]
        | cons line others => simp [encoded]

theorem encoded_toList (text : String) : encoded text.toList = text.toUTF8.data.toList := by
  rw [String.toUTF8_eq_toByteArray, ← String.utf8Encode_toList, List.utf8Encode,
    List.toList_data_toByteArray, encoded]

theorem fromUTF8?_encoded (chars : List Char) :
    String.fromUTF8? ⟨(encoded chars).toArray⟩ = some (String.ofList chars) := by
  have bytes : (⟨(encoded chars).toArray⟩ : ByteArray) = (String.ofList chars).toUTF8 := by
    apply ByteArray.ext
    rw [← Array.toList_inj, ← encoded_toList, String.toList_ofList]
  rw [bytes, fromUTF8?_toUTF8]

theorem encoded_ne_nil {chars : List Char} (nonempty : chars ≠ []) : encoded chars ≠ [] := by
  intro none
  have bytes := fromUTF8?_encoded chars
  rw [none] at bytes
  have same := Option.some.inj ((fromUTF8?_encoded []).symm.trans bytes)
  exact nonempty (String.ofList_injective same).symm

theorem lines_behind (text : String) : lines (behind text) = (lines text).tail := by
  rw [lines, behind, String.toList_ofList, linesOf_behindLine, lines, List.map_tail]

namespace Console

/-- The console with a text still to be read. -/
def showing (text : String) (err : List Passage) : Console where
  input := text.toUTF8.data.toList
  err := err

@[simp]
theorem err_showing (text : String) (err : List Passage) : (showing text err).err = err := rfl

@[simp]
theorem after_showing (text : String) (err : List Passage) (events : List Event) :
    (showing text err).after events = showing text (err ++ events.map .event) := rfl

/-- The answer that a line gives to a question. -/
def answer? (offer line? : Option String) : Option String :=
  line?.bind fun line => if trimLineEnd line = "" then offer else some (trimLineEnd line)

/-- What a question looks like on standard error. -/
def question (label : String) (offer : Option String) : String :=
  match offer with
  | some offered => label ++ " [" ++ offered ++ "]: "
  | none => label ++ ": "

theorem readLine_apply (console : Console) :
    readLine console =
      ((if (splitLine console.input).1 = [] then .ok none
        else match String.fromUTF8? ⟨(splitLine console.input).1.toArray⟩ with
          | some line => .ok (some (trimLineEnd line))
          | none => .error (.io .notUnicode)),
        { console with input := (splitLine console.input).2 }) := by
  simp only [readLine, bind, StateT.bind, get, getThe, MonadStateOf.get, StateT.get, pure, modify,
    modifyGet, MonadStateOf.modifyGet, StateT.modifyGet]
  split_ifs
  · rfl
  · cases String.fromUTF8? ⟨(splitLine console.input).1.toArray⟩ <;> rfl

theorem readLine_showing (text : String) (err : List Passage) :
    readLine (showing text err) =
      (.ok ((lines text).head?.map trimLineEnd), showing (behind text) err) := by
  have split : splitLine (showing text err).input =
      (encoded ((linesOf text.toList).head?.getD []), (behind text).toUTF8.data.toList) := by
    rw [showing, ← encoded_toList, ← encoded_toList, splitLine_encoded, behind, String.toList_ofList]
  rw [readLine_apply, split, lines]
  cases found : linesOf text.toList with
  | nil => rfl
  | cons line others =>
      have first : encoded line ≠ [] :=
        encoded_ne_nil (ne_nil_of_mem_linesOf (found ▸ List.mem_cons_self))
      simp [first, fromUTF8?_encoded, showing]

theorem ask_eq (label : String) (offer : Option String) :
    ask label offer = (do
      write (question label offer)
      match ← readLine with
      | .error error => return .error error
      | .ok none => return .ok none
      | .ok (some answer) => return .ok (if answer = "" then offer else some answer)) := by
  cases offer <;> rfl

theorem ask_showing (label : String) (offer : Option String) (text : String) (err : List Passage) :
    ask label offer (showing text err) =
      (.ok (answer? offer (lines text).head?),
        showing (behind text) (err ++ [.text (question label offer)])) := by
  have written : write (question label offer) (showing text err) =
      (⟨⟩, showing text (err ++ [.text (question label offer)])) := rfl
  simp only [ask_eq, bind, StateT.bind, written, readLine_showing]
  cases (lines text).head? <;> rfl

/-- What a prompt writes before it asks for the user name. -/
def heading (context : PromptContext) : List Passage :=
  (if 0 < context.priorFailures then
    [.event (.leftEmpty context.kind context.realm (context.priorFailures - 1)),
      .text "Authentication failed, try again.\n"]
  else []) ++ [.text ("Authentication realm: " ++ context.realm ++ "\n")]

theorem prompt_eq (context : PromptContext) (record : Credential) (text : String) (err : List Passage) :
    prompt context record (showing text err) =
      (match record with
        | .simple _ password maySave => do
            match ← ask "Username" context.username with
            | .error error => return .error error
            | .ok none => return .ok record
            | .ok (some user) =>
                match ← ask ("Password for '" ++ user ++ "'") none with
                | .error error => return .error error
                | .ok secret => return .ok (.simple user (secret.getD password) maySave)
        | .username _ maySave => do
            match ← ask "Username" context.username with
            | .error error => return .error error
            | .ok none => return .ok record
            | .ok (some user) => return .ok (.username user maySave)
        | _ => return .ok record : StateM Console (Except Error Credential))
      (showing text (err ++ heading context)) := by
  by_cases failed : 0 < context.priorFailures
  · have err_eq : err ++ heading context = err ++
        [.event (.leftEmpty context.kind context.realm (context.priorFailures - 1))] ++
        [.text "Authentication failed, try again.\n"] ++
        [.text ("Authentication realm: " ++ context.realm ++ "\n")] := by
      simp [heading, failed]
    rw [prompt.eq_def, if_pos failed, err_eq]
    cases record <;> rfl
  · have err_eq : err ++ heading context =
        err ++ [.text ("Authentication realm: " ++ context.realm ++ "\n")] := by
      simp [heading, failed]
    rw [prompt.eq_def, if_neg failed, err_eq]
    cases record <;> rfl

/-- A record of user name and password is filled in from two lines, or left alone if the first one is no
answer. -/
theorem prompt_simple (context : PromptContext) (user password : String) (maySave : Bool)
    (text : String) (err : List Passage) :
    prompt context (.simple user password maySave) (showing text err) =
      match answer? context.username (lines text).head? with
      | none => (.ok (.simple user password maySave),
          showing (behind text) (err ++ heading context ++ [.text (question "Username" context.username)]))
      | some name =>
          (.ok (.simple name ((answer? none (lines text).tail.head?).getD password) maySave),
            showing (behind (behind text)) (err ++ heading context ++
              [.text (question "Username" context.username)] ++
              [.text (question ("Password for '" ++ name ++ "'") none)])) := by
  rw [prompt_eq]
  simp only [bind, StateT.bind, ask_showing]
  cases answer? context.username (lines text).head? with
  | none => rfl
  | some name =>
      dsimp only
      rw [StateT.bind, ask_showing, lines_behind]
      rfl

theorem prompt_username (context : PromptContext) (user : String) (maySave : Bool) (text : String)
    (err : List Passage) :
    prompt context (.username user maySave) (showing text err) =
      (.ok (.username ((answer? context.username (lines text).head?).getD user) maySave),
        showing (behind text) (err ++ heading context ++ [.text (question "Username" context.username)])) := by
  rw [prompt_eq]
  simp only [bind, StateT.bind, ask_showing]
  cases answer? context.username (lines text).head? <;> rfl

end Console

end Checkout.CommandLine
