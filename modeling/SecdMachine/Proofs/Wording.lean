import SecdMachine.Proofs.Presentation

/-!
# SecdMachine.Proofs.Wording

What messages and explanations are made of.

A text of a fault is a row of words with arguments between them (`weave`).  The words
go with the cause of the fault (`messageWords`, `explanationWords`); which arguments
are put between them, and how each is written, is what `Fault.creators` says of the
identifier.

For the arguments of the fault itself this is `message_eq_weave` and
`explanation_eq_weave`.  Named from outside, a fault may be given arguments of other
kinds where a text quotes them, and more of them than it takes.  It then has the words
of every other fault with its identifier, and its own arguments are written as those
that were given (`words_eq_of_ofArguments?`).  The main statement puts the two
together (`texts_of_ofArguments?`).
-/

namespace SecdMachine

namespace Fault

/-! ## words and arguments -/

/-- An argument as a text writes it. -/
def Use.write : Use → Argument → String
  | .quoted, a => emph a.plain
  | .character, .integer code | .character, .character code =>
    Text.quoteChar (charOfCode code)
  | .character, .location n => Text.quoteChar (charOfCode n)
  | _, a => a.plain

/-- A character is written in quotes, with an escape if it cannot be shown. -/
theorem write_character (c : Char) :
    Use.write .character (.character c.toNat) = Text.quoteChar c :=
  congrArg Text.quoteChar (charOfCode_toNat c)

/-- Words with arguments between them. -/
def weave : List String → List String → String
  | word :: words, arg :: args => word ++ arg ++ weave words args
  | words, _ => Text.concat words

/-- The words of a message: what stands before the first argument, between two of
them, and behind the last. -/
def messageWords : Fault → List String
  | .labelRedefined _ _ => ["redefining label ", ""]
  | .mainMissing => ["no 'main' label"]
  | .labelMalformed _ => ["malformed label ", ""]
  | .labelUndefined _ => ["no such label ", ""]
  | .illegalCharacter _ => ["invalid character ", ""]
  | .accessArgument _ =>
    ["argument of 'access' should be '$' followed by a positive integer, not ", ""]
  | .argumentCount _ _ _ => ["", " takes ", ", not '", "'"]
  | .constArgument _ => ["can't parse ", " as an integer or boolean literal"]
  | .focusArgument _ => ["argument of 'focus' should be a positive integer, not ", ""]
  | .opcodeUnknown _ => ["unknown opcode ", ""]
  | .tooManyFaults _ => ["too many errors, giving up after '", "'"]
  | .budgetExceeded _ => ["step budget of '", "' steps exceeded"]
  | .accessRange _ _ =>
    ["environment index out of range: 'access $", "' but the environment holds '", "' values"]
  | .applyType _ => ["'apply' expects a closure below its argument, got ", ""]
  | .applynType _ => ["'applyn' expects a focused function below its argument, got ", ""]
  | .arithmeticType _ _ _ => ["", " expects two ints, got ", " and ", ""]
  | .branchType _ => ["'brfl' expects a bool, got ", ""]
  | .equalityType _ _ => ["'eq' can't compare ", " with ", ""]
  | .focusRange _ _ => ["'focus ", "' selects past the end of a frame of '", "' functions"]
  | .focusType _ => ["'focus' expects a recursive frame, got ", ""]
  | .alreadyHalted => ["the machine has halted and can't be stepped"]
  | .operationUnknown _ => ["unknown opcode ", ""]
  | .overflow _ => ["integer overflow in ", ""]
  | .outsideProgram _ => ["program counter '@", "' is outside the program"]
  | .returnType _ _ =>
    ["'return' expects a return address and a saved environment below its result, got ",
      " and ", ""]
  | .underflow _ _ _ => ["stack underflow: ", " needs '", "' values but the stack holds '", "'"]

/-- The words of an explanation.  Only two explanations take arguments; any other is
one piece. -/
def explanationWords (instruction : String) : Fault → List String
  | .labelRedefined _ _ =>
    ["The label ", " was already defined at line " ++ "'",
      "'" ++ ". Each label names exactly one place in the program, so it can only be defined once."]
  | .labelUndefined _ =>
    ["The instruction " ++ emph instruction ++ " refers to the label ",
      ", which isn't defined anywhere in the program."]
  | f => [f.explanation instruction]

/-! ## the texts of a fault -/

section

variable {f g : Fault} {c : Creator} {args : List Argument}

/-- **Messages** have a word more than they take arguments, and consist of both in
turn. -/
theorem message_eq_weave (hc : creators.lookup f.id = some c) :
    f.messageWords.length = c.message.length + 1 ∧
      f.message = weave f.messageWords (List.zipWith Use.write c.message f.arguments) := by
  unfold message messageWords arguments
  cases f
  all_goals
    simp [id, creators, List.lookup_cons] at hc
    subst hc
    refine ⟨rfl, ?_⟩
  case illegalCharacter code => simp [weave, write_character]
  all_goals
    simp only [List.zipWith_cons_cons, List.zipWith_nil_left, Use.write, Argument.plain, weave,
      Text.concat_cons, Text.concat_nil, emph, emphNumber]
    -- The quotes of a number belong to the words beside it, so characters are compared.
    rw [← String.toList_inj]
    simp only [String.toList_append, List.append_assoc]
    repeat rw [String.toList_ofList]
    simp only [List.cons_append, List.nil_append, List.append_nil]

/-- **Explanations** have a word more than they take arguments, and consist of both in
turn. -/
theorem explanation_eq_weave (hc : creators.lookup f.id = some c) (instruction : String) :
    (f.explanationWords instruction).length = c.explanation.length + 1 ∧
      f.explanation instruction =
        weave (f.explanationWords instruction)
          (List.zipWith Use.write c.explanation f.arguments) := by
  unfold explanationWords arguments
  cases f
  all_goals
    simp [id, creators, List.lookup_cons] at hc
    subst hc
    refine ⟨rfl, ?_⟩
  case labelRedefined name line =>
    unfold explanation
    simp only [List.zipWith_cons_cons, List.zipWith_nil_left, Use.write, Argument.plain, weave,
      Text.concat_cons, Text.concat_nil, emph, emphNumber, String.append_assoc,
      String.append_empty]
  case labelUndefined name =>
    unfold explanation
    simp [Use.write, Argument.plain, weave, String.append_assoc]
  all_goals simp [weave]

/-! ## arguments from outside -/

theorem of_ofText {mk : String → Fault} (h : ofText mk args = some g) :
    ∃ a rest, args = a :: rest ∧ g = mk a.plain := by
  unfold ofText at h
  split at h <;> cases h
  exact ⟨_, _, rfl, rfl⟩

theorem of_ofTexts {mk : String → String → Fault} (h : ofTexts mk args = some g) :
    ∃ a b rest, args = a :: b :: rest ∧ g = mk a.plain b.plain := by
  unfold ofTexts at h
  split at h <;> cases h
  exact ⟨_, _, _, rfl, rfl⟩

theorem of_ofInteger {mk : Int → Fault} (h : ofInteger mk args = some g) :
    ∃ m rest, args = .integer m :: rest ∧ g = mk m := by
  unfold ofInteger at h
  split at h <;> cases h
  exact ⟨_, _, rfl, rfl⟩

theorem of_ofIntegers {mk : Int → Int → Fault} (h : ofIntegers mk args = some g) :
    ∃ m n rest, args = .integer m :: .integer n :: rest ∧ g = mk m n := by
  unfold ofIntegers at h
  split at h <;> cases h
  exact ⟨_, _, _, rfl, rfl⟩

/-- An illegal character may be given by any number, and is written alike. -/
theorem of_ofCharacter (h : ofCharacter args = some g) :
    ∃ a rest code, args = a :: rest ∧ Use.write .character a = Text.quoteChar code ∧
      g = .illegalCharacter code := by
  unfold ofCharacter at h
  split at h <;> cases h
  all_goals exact ⟨_, _, _, rfl, rfl, rfl⟩

theorem of_ofRedefinition (h : ofRedefinition args = some g) :
    ∃ a line rest, args = a :: .integer line :: rest ∧ g = .labelRedefined a.plain line := by
  unfold ofRedefinition at h
  split at h <;> cases h
  exact ⟨_, _, _, rfl, rfl⟩

theorem of_ofArgumentCount (h : ofArgumentCount args = some g) :
    ∃ a expected given rest, args = a :: .text expected :: .integer given :: rest ∧
      g = .argumentCount a.plain expected given := by
  unfold ofArgumentCount at h
  split at h <;> cases h
  exact ⟨_, _, _, _, rfl, rfl⟩

theorem of_ofArithmetic (h : ofArithmetic args = some g) :
    ∃ a l r rest, args = a :: l :: r :: rest ∧ g = .arithmeticType a.plain l.plain r.plain := by
  unfold ofArithmetic at h
  split at h <;> cases h
  exact ⟨_, _, _, _, rfl, rfl⟩

theorem of_ofLocation (h : ofLocation args = some g) :
    ∃ location rest, args = .location location :: rest ∧ g = .outsideProgram location := by
  unfold ofLocation at h
  split at h <;> cases h
  exact ⟨_, _, rfl, rfl⟩

theorem of_ofUnderflow (h : ofUnderflow args = some g) :
    ∃ a needed held rest, args = a :: .integer needed :: .integer held :: rest ∧
      g = .underflow a.plain needed held := by
  unfold ofUnderflow at h
  split at h <;> cases h
  exact ⟨_, _, _, _, rfl, rfl⟩

/-- A fault that is named by an identifier has the words of every other fault with this
identifier, and its arguments are written as those that were given. -/
theorem words_eq_of_ofArguments? (hc : creators.lookup f.id = some c)
    (hg : ofArguments? f.id args = some g) (instruction : String) :
    (g.id = f.id ∧ g.messageWords = f.messageWords ∧
        g.explanationWords instruction = f.explanationWords instruction) ∧
      List.zipWith Use.write c.message g.arguments = List.zipWith Use.write c.message args ∧
      List.zipWith Use.write c.explanation g.arguments =
        List.zipWith Use.write c.explanation args := by
  cases f
  all_goals
    simp [id, creators, List.lookup_cons] at hc
    subst hc
  case mainMissing | alreadyHalted =>
    cases hg
    exact ⟨⟨rfl, rfl, rfl⟩, rfl, rfl⟩
  case illegalCharacter =>
    obtain ⟨a, rest, code, rfl, ha, rfl⟩ := of_ofCharacter hg
    refine ⟨⟨rfl, rfl, rfl⟩, ?_, rfl⟩
    rw [arguments, List.zipWith_cons_cons, List.zipWith_cons_cons, ha, write_character]
    rfl
  case labelRedefined =>
    obtain ⟨a, line, rest, rfl, rfl⟩ := of_ofRedefinition hg
    exact ⟨⟨rfl, rfl, rfl⟩, rfl, rfl⟩
  case argumentCount =>
    obtain ⟨a, expected, given, rest, rfl, rfl⟩ := of_ofArgumentCount hg
    exact ⟨⟨rfl, rfl, rfl⟩, rfl, rfl⟩
  case tooManyFaults | budgetExceeded =>
    obtain ⟨m, rest, rfl, rfl⟩ := of_ofInteger hg
    exact ⟨⟨rfl, rfl, rfl⟩, rfl, rfl⟩
  case accessRange | focusRange =>
    obtain ⟨m, n, rest, rfl, rfl⟩ := of_ofIntegers hg
    exact ⟨⟨rfl, rfl, rfl⟩, rfl, rfl⟩
  case arithmeticType =>
    obtain ⟨a, l, r, rest, rfl, rfl⟩ := of_ofArithmetic hg
    exact ⟨⟨rfl, rfl, rfl⟩, rfl, rfl⟩
  case equalityType | returnType =>
    obtain ⟨a, b, rest, rfl, rfl⟩ := of_ofTexts hg
    exact ⟨⟨rfl, rfl, rfl⟩, rfl, rfl⟩
  case outsideProgram =>
    obtain ⟨location, rest, rfl, rfl⟩ := of_ofLocation hg
    exact ⟨⟨rfl, rfl, rfl⟩, rfl, rfl⟩
  case underflow =>
    obtain ⟨a, needed, held, rest, rfl, rfl⟩ := of_ofUnderflow hg
    exact ⟨⟨rfl, rfl, rfl⟩, rfl, rfl⟩
  all_goals
    obtain ⟨a, rest, rfl, rfl⟩ := of_ofText hg
    exact ⟨⟨rfl, rfl, rfl⟩, rfl, rfl⟩

/-- **Texts from outside**: whatever the arguments that a fault is named with, its
message is made of the words that go with its identifier, which are those of any fault
`f` with this identifier, and of the arguments that its creator takes, written as it
says.  So is its explanation, and neither depends on anything else. -/
theorem texts_of_ofArguments? (hc : creators.lookup f.id = some c)
    (hg : ofArguments? f.id args = some g) (instruction : String) :
    g.message = weave f.messageWords (List.zipWith Use.write c.message args) ∧
      g.explanation instruction =
        weave (f.explanationWords instruction) (List.zipWith Use.write c.explanation args) := by
  obtain ⟨⟨hid, hmessage, hexplanation⟩, hwritten, hwritten'⟩ :=
    words_eq_of_ofArguments? hc hg instruction
  rw [← hid] at hc
  constructor
  · rw [(message_eq_weave hc).2, hmessage, hwritten]
  · rw [(explanation_eq_weave hc instruction).2, hexplanation, hwritten']

end

end Fault

end SecdMachine
