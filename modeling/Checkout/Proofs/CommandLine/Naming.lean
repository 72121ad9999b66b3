import Checkout.CommandLine.Program
import Checkout.Proofs.Action
import Checkout.Proofs.CommandLine.Envelopes

/-!
# The name of the command

The report of a failed run names the command that the arguments seem to give: what looks like an option is
skipped, and the first other argument is taken for the name. The arguments themselves are read by a grammar
that knows the options. Where that grammar finds a command, both find the same name, because only options of
that grammar stand in front of the name and each of them is skipped together with its value.

The name is looked for first, and the search stops the program at an argument that is not UTF-8. The grammar
would take such an argument for the name of a file; but the program does not come to read it by the grammar.
-/

namespace Checkout.CommandLine

/-! ## Arguments as they were written -/

/-- The argument that looks like this. -/
def Token.written : Token → OsText
  | .escape => "--"
  | .long name none => ("--" : OsText) ++ name
  | .long name (some value) => ("--" : OsText) ++ name ++ ("=" : OsText) ++ value
  | .short letters => ("-" : OsText) ++ letters
  | .word text => text

namespace Token

theorem bytes_escape : (OsText.ofString "--").bytes = [hyphen, hyphen] := by decide +kernel

theorem bytes_hyphen : (OsText.ofString "-").bytes = [hyphen] := by decide +kernel

theorem bytes_equals : (OsText.ofString "=").bytes = [equals] := by decide +kernel

theorem written_longOption (bytes : List UInt8) :
    (longOption bytes).written = ⟨hyphen :: hyphen :: bytes⟩ := by
  have whole := List.takeWhile_append_dropWhile (p := (· ≠ equals)) (l := bytes)
  refine congrArg OsText.mk (?_ : (longOption bytes).written.bytes = _)
  rw [longOption]
  cases found : bytes.dropWhile (· ≠ equals) with
  | nil =>
      rw [found, List.append_nil] at whole
      simp only [written, OsText.bytes_append, bytes_escape, whole]
      rfl
  | cons mark value =>
      have stops := List.head?_dropWhile_not (· ≠ equals) bytes
      obtain rfl : mark = equals := by
        rw [found] at stops
        simpa using stops
      rw [found] at whole
      simp only [written, OsText.bytes_append, bytes_escape, bytes_equals, List.append_assoc]
      exact congrArg (hyphen :: hyphen :: ·) whole

/-- Nothing of an argument is lost. -/
theorem written_ofArgument (argument : OsText) : (ofArgument argument).written = argument := by
  rw [ofArgument]
  split
  case h_1 shape => exact congrArg OsText.mk (bytes_escape.trans shape.symm)
  case h_2 bytes shape =>
      rw [written_longOption]
      exact congrArg OsText.mk shape.symm
  case h_4 letters _ _ shape =>
      refine congrArg OsText.mk (Eq.trans ?_ shape.symm)
      rw [bytes_hyphen]
      rfl
  all_goals rfl

theorem eq_written {argument : OsText} {token : Token} (looks : ofArgument argument = token) :
    argument = token.written := by
  rw [← looks, written_ofArgument]

theorem plain_of_word {argument text : OsText} (looks : ofArgument argument = .word text) :
    argument = "-" ∨ isHyphenated argument = false := by
  rw [ofArgument] at looks
  split at looks
  case h_2 =>
      rw [longOption] at looks
      split at looks <;> cases looks
  case h_3 shape => exact .inl (congrArg OsText.mk (shape.trans bytes_hyphen.symm))
  case h_5 others =>
      right
      rw [isHyphenated, decide_eq_false_iff_not]
      intro hyphenated
      obtain ⟨letters, shape⟩ := List.head?_eq_some_iff.mp hyphenated
      exact others letters shape
  all_goals cases looks

theorem plain_of_asValue? {argument value : OsText} (isValue : asValue? argument = some value) :
    argument = "-" ∨ isHyphenated argument = false := by
  rw [asValue?] at isValue
  split at isValue
  case h_1 looks => exact plain_of_word looks
  case h_2 => cases isValue

theorem ofArgument_ne_short_nil (argument : OsText) : ofArgument argument ≠ .short ⟨[]⟩ := by
  intro looks
  obtain rfl := eq_written looks
  exact absurd looks (by decide +kernel)

end Token

/-! ## In front of the name -/

/-- What may stand in front of the name of a command. -/
inductive IsFront : List OsText → Prop where
  | nil : IsFront []
  | switch {argument : String} {others : List OsText}
      (known : argument ∈ ["--json", "--quiet", "-q", "--non-interactive"]) (options : IsFront others) :
      IsFront (argument :: others)
  /-- A setting whose value is joined to it. -/
  | joined (value : OsText) {others : List OsText} (options : IsFront others) :
      IsFront ((("--config=" : OsText) ++ value) :: others)
  /-- A setting in front of its value, which must not look like an option. -/
  | separate {value : OsText} {others : List OsText} (plain : value = "-" ∨ isHyphenated value = false)
      (options : IsFront others) : IsFront ("--config" :: value :: others)

theorem readWords_ne_word (grammar : Grammar) (given front : Given) (arguments rest : List OsText)
    (text : OsText) : readWords grammar given arguments ≠ .word front text rest := by
  fun_induction readWords grammar given arguments <;> simp_all

theorem readLetters_ne_word (given front : Given) (letters : List UInt8) (text : OsText)
    (rest : List OsText) : readLetters given letters ≠ .error (.word front text rest) := by
  fun_induction readLetters given letters <;> simp_all

theorem addSwitch?_again {given after : Given} {switch : Switch}
    (added : given.addSwitch? switch = some after) : after.addSwitch? switch = none := by
  rw [Given.addSwitch?] at added
  split at added
  · cases added
  · obtain rfl := Option.some.inj added
    simp [Given.addSwitch?]

/-- The one letter that does not end the reading can be given once. -/
theorem readLetters_eq_ok {given after : Given} {letters : List UInt8}
    (reading : readLetters given letters = .ok after) : letters = [] ∨ letters = ['q'.toUInt8] := by
  have none_left {quieted : Given} {others : List UInt8} (used : quieted.addSwitch? .quiet = none)
      (reading : readLetters quieted others = .ok after) : others = [] := by
    fun_cases readLetters quieted others <;> simp_all [readLetters]
  fun_cases readLetters given letters with
  | case1 => exact .inl rfl
  | case2 others quieted added =>
      rw [readLetters, if_pos rfl, added] at reading
      exact .inr (congrArg ('q'.toUInt8 :: ·) (none_left (addSwitch?_again added) reading))
  | _ => simp_all [readLetters]

theorem known_switch {name : OsText} {switch : Switch} (known : leading.switch? name = some switch) :
    ∃ argument ∈ ["--json", "--quiet", "-q", "--non-interactive"], ("--" : OsText) ++ name = argument := by
  obtain ⟨text, isText, found⟩ := Option.bind_eq_some_iff.mp known
  obtain rfl := OsText.text?_eq_some_iff.mp isText
  obtain ⟨before, behind, shape, -⟩ := List.lookup_eq_some_iff.mp found
  have listed : (text, switch) ∈ commonSwitches := by
    change commonSwitches = _ at shape
    rw [shape]
    exact List.mem_append_right _ List.mem_cons_self
  refine ⟨"--" ++ text, ?_, (OsText.ofString_append _ _).symm⟩
  simp only [commonSwitches, List.mem_cons, List.not_mem_nil, or_false, Prod.mk.injEq] at listed
  rcases listed with ⟨rfl, -⟩ | ⟨rfl, -⟩ | ⟨rfl, -⟩ <;> decide

theorem known_setting {name : OsText} {setting : Setting}
    (known : leading.setting? name = some setting) : name = "config" := by
  obtain ⟨text, isText, found⟩ := Option.bind_eq_some_iff.mp known
  obtain rfl := OsText.text?_eq_some_iff.mp isText
  obtain ⟨before, behind, shape, -⟩ := List.lookup_eq_some_iff.mp found
  have listed : (text, setting) ∈ commonSettings := by
    change commonSettings = _ at shape
    rw [shape]
    exact List.mem_append_right _ List.mem_cons_self
  exact congrArg (OsText.ofString ∘ Prod.fst) (List.mem_singleton.mp listed)

/-- Where the common options end at a word, there are only such options in front of it. -/
theorem isFront_of_read {given front : Given} {arguments rest : List OsText} {text : OsText}
    (reading : read leading given arguments = .word front text rest) :
    ∃ options, arguments = options ++ text :: rest ∧ IsFront options := by
  fun_induction read leading given arguments with
  | case2 => exact absurd reading (readWords_ne_word _ _ _ _ _ _)
  | case3 given argument others word looks =>
      cases reading
      exact ⟨[], congrArg (· :: _) (Token.eq_written looks), .nil⟩
  | case6 given argument others letters looks after accepted ih =>
      obtain ⟨options, rfl, isFront⟩ := ih reading
      rcases letters with ⟨letters⟩
      rcases readLetters_eq_ok accepted with rfl | rfl
      · exact absurd looks (Token.ofArgument_ne_short_nil argument)
      · obtain rfl := Token.eq_written looks
        exact ⟨_ :: options, rfl, .switch (by decide : "-q" ∈ _) isFront⟩
  | case7 given argument others letters looks stopped refused =>
      exact absurd (refused.trans (congrArg Except.error reading)) (readLetters_ne_word _ _ _ _ _)
  | case10 given argument others name looks _ _ switch known after accepted ih =>
      obtain ⟨options, rfl, isFront⟩ := ih reading
      obtain rfl := Token.eq_written looks
      obtain ⟨written, listed, spelled⟩ := known_switch known
      refine ⟨_ :: options, rfl, ?_⟩
      rw [Token.written, spelled]
      exact .switch listed isFront
  | case13 given argument name looks _ _ setting known _ next others after accepted ih =>
      obtain ⟨value, isValue, -⟩ := Option.bind_eq_some_iff.mp accepted
      obtain ⟨options, rfl, isFront⟩ := ih reading
      obtain rfl := known_setting known
      obtain rfl := Token.eq_written looks
      exact ⟨_ :: next :: options, rfl, .separate (Token.plain_of_asValue? isValue) isFront⟩
  | case16 given argument others name value looks after accepted ih =>
      obtain ⟨setting, known, -⟩ := Option.bind_eq_some_iff.mp accepted
      obtain ⟨options, rfl, isFront⟩ := ih reading
      obtain rfl := known_setting known
      obtain rfl := Token.eq_written looks
      exact ⟨_ :: options, rfl, .joined value isFront⟩
  | _ => simp_all [leading]

/-! ## The search for the name -/

theorem nameIn_word {text : String} (plain : isHyphenated text = false) (rest : List OsText) :
    nameIn (OsText.ofString text :: rest) = .ok text := by
  have apart : text ≠ "--config" := by
    rintro rfl
    exact absurd plain (by decide +kernel)
  rw [nameIn.eq_def]
  simp [OsText.text?_ofString, apart, plain]

theorem nameIn_option {argument : OsText} (apart : argument ≠ "--config")
    (hyphenated : isHyphenated argument = true) (rest : List OsText) :
    nameIn (argument :: rest) =
      if argument.text?.isSome then nameIn rest else .error .unreadableArgument := by
  rw [nameIn.eq_def]
  dsimp only
  cases isText : argument.text? with
  | none => rfl
  | some text =>
      have apart : text ≠ "--config" := by
        rintro rfl
        exact apart (OsText.text?_eq_some_iff.mp isText).symm
      simp [apart, hyphenated]

theorem nameIn_setting (value : OsText) (rest : List OsText) :
    nameIn ("--config" :: value :: rest) =
      if value.text?.isSome then nameIn rest else .error .unreadableArgument := by
  rw [nameIn.eq_def]
  simp [OsText.text?_ofString]

/-- Behind common options the name is found, unless one of them is not UTF-8. -/
theorem nameIn_append {front : List OsText} (options : IsFront front) {text : String}
    (plain : isHyphenated text = false) (rest : List OsText) :
    nameIn (front ++ OsText.ofString text :: rest) =
      if front.all (·.text?.isSome) then .ok text else .error .unreadableArgument := by
  induction options with
  | nil => exact nameIn_word plain rest
  | @switch argument _ known _ ih =>
      have apart : OsText.ofString argument ≠ "--config" := by
        rw [Ne, OsText.ofString_inj]
        rintro rfl
        exact absurd known (by decide)
      have hyphenated : isHyphenated argument = true := by
        simp only [List.mem_cons, List.not_mem_nil, or_false] at known
        rcases known with rfl | rfl | rfl | rfl <;> decide +kernel
      rw [List.cons_append, nameIn_option apart hyphenated, ih]
      simp
  | joined value _ ih =>
      have apart : ("--config=" : OsText) ++ value ≠ "--config" := by
        intro same
        have lengths := congrArg (·.bytes.length) same
        have whole : (OsText.ofString "--config=").bytes.length = 9 := by decide +kernel
        have short : (OsText.ofString "--config").bytes.length = 8 := by decide +kernel
        simp only [OsText.bytes_append, List.length_append, whole, short] at lengths
        omega
      have hyphenated : isHyphenated (("--config=" : OsText) ++ value) = true := by
        have first : (OsText.ofString "--config=").bytes.head? = some hyphen := by decide +kernel
        rw [isHyphenated, OsText.bytes_append, List.head?_append, first]
        rfl
      rw [List.cons_append, nameIn_option apart hyphenated, ih, List.all_cons]
      cases (("--config=" : OsText) ++ value).text?.isSome <;> simp
  | @separate value _ _ _ ih =>
      have isText : (OsText.ofString "--config").text?.isSome = true := by simp
      rw [List.cons_append, List.cons_append, nameIn_setting, ih, List.all_cons, List.all_cons, isText]
      cases value.text?.isSome <;> simp

theorem CommandName.text_of_ofText? {text : OsText} {name : CommandName} (found : ofText? text = some name) :
    OsText.ofString name.text = text := by
  simpa using List.find?_some found

theorem CommandName.isHyphenated_text (name : CommandName) : isHyphenated name.text = false := by
  cases name <;> decide +kernel

theorem Command.name_of_command? {name : CommandName} {given : Given} {command : Command}
    (described : command? name given = some command) : command.name = name := by
  obtain ⟨operand, -, described⟩ := Option.bind_eq_some_iff.mp described
  cases name with
  | init =>
      obtain ⟨url, -, described⟩ := Option.bind_eq_some_iff.mp described
      exact congrArg Command.name (Option.some.inj described).symm
  | auth =>
      obtain ⟨realm, -, described⟩ := Option.bind_eq_some_iff.mp described
      exact congrArg Command.name (Option.some.inj described).symm
  | lock | locked | cleanup => exact congrArg Command.name (Option.some.inj described).symm

theorem name_of_invocation? {environment : Environment} {front behind : Given} {name : CommandName}
    {invocation : Invocation} (described : invocation? environment front name behind = some invocation) :
    invocation.command.name = name := by
  obtain ⟨command, isCommand, described⟩ := Option.bind_eq_some_iff.mp described
  obtain ⟨_, -, described⟩ := Option.bind_eq_some_iff.mp described
  obtain ⟨_, -, described⟩ := Option.bind_eq_some_iff.mp described
  obtain rfl := Option.some.inj described
  exact Command.name_of_command? isCommand

theorem name_of_ofWord {environment : Environment} {front : Given} {text : OsText} {rest : List OsText}
    {invocation : Invocation} (request : Request.ofWord environment front text rest = .run invocation) :
    OsText.ofString invocation.command.name.text = text := by
  rw [Request.ofWord.eq_def] at request
  cases found : CommandName.ofText? text with
  | none =>
      -- at most help is asked for
      simp only [found] at request
      split at request
      · cases request
      · split at request
        case h_2 => split at request <;> cases request
        all_goals cases request
  | some name =>
      simp only [found] at request
      split at request
      · split at request
        · rename_i described
          obtain rfl := Request.run.inj request
          rw [name_of_invocation? described, CommandName.text_of_ofText? found]
        · cases request
      all_goals cases request

/-- A command runs only where nothing but common options stands in front of its name. -/
theorem exists_front {environment : Environment} {arguments : List OsText} {invocation : Invocation}
    (request : Request.ofArguments environment arguments = .run invocation) :
    ∃ front rest, arguments = front ++ OsText.ofString invocation.command.name.text :: rest ∧ IsFront front := by
  rw [Request.ofArguments] at request
  cases reading : read leading {} arguments with
  | word given text rest =>
      simp only [reading] at request
      obtain ⟨front, shape, isFront⟩ := isFront_of_read reading
      rw [name_of_ofWord request]
      exact ⟨front, rest, shape, isFront⟩
  | _ => simp [reading] at request

/-- The search either finds the name of the command that is run, or stops the program: at an argument in front
of the name that is not UTF-8, or because of how the program was called. -/
theorem inferredName_of_request {environment : Environment} {arguments : List OsText} {invocation : Invocation}
    (request : Request.ofArguments environment arguments = .run invocation) (program : OsText) :
    ∃ front rest, arguments = front ++ OsText.ofString invocation.command.name.text :: rest ∧ IsFront front ∧
      inferredName program arguments =
        if ∀ argument ∈ program :: front, argument.text?.isSome = true then .ok invocation.command.name.text
        else .error .unreadableArgument := by
  obtain ⟨front, rest, rfl, isFront⟩ := exists_front request
  refine ⟨front, rest, rfl, isFront, ?_⟩
  rw [inferredName, nameIn_append isFront invocation.command.name.isHyphenated_text rest]
  simp only [List.forall_mem_cons, List.all_eq_true]
  cases program.text?.isSome <;> simp

variable {environment : Environment} {arguments : List OsText} {invocation : Invocation}

theorem eq_name_of_inferredName {program : OsText} {found : String}
    (request : Request.ofArguments environment arguments = .run invocation)
    (named : inferredName program arguments = .ok found) : found = invocation.command.name.text := by
  obtain ⟨_, _, -, -, searched⟩ := inferredName_of_request request program
  rw [named] at searched
  split at searched
  · exact Except.ok.inj searched
  · cases searched

end Checkout.CommandLine
