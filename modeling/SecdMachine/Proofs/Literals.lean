import SecdMachine.Proofs.Extension
import SecdMachine.Proofs.JsonText
import SecdMachine.Proofs.Spelling

/-!
# SecdMachine.Proofs.Literals

Programs with other literals.

The literals of integers are what spells them, those of booleans are words
(`readLiteral?_eq_some_iff`).  Every machine integer has a literal, its decimal form
(`readLiteral?_decimal`), and has others.  Literals are made of letters, digits,
underscores and signs (`isLiteralChar_of_readLiteral?`), so that they stay in one
piece when a line that holds one is cut into statements (`pieces_const`).

Texts are compared line by line (`LineMatches`), and a line matches itself with
the literal in it replaced (`lineMatches_const`, `lineMatches_const_append`).  A
text that matches an accepted one is accepted, and its program has the same
operations and the constants that its own literals denote
(`Program.assemble_of_matches`).
-/

namespace SecdMachine

/-! ## decimal literals -/

namespace Numeral

/-- A decimal digit has the value of its distance from zero. -/
theorem digit?_of_isDigit {c : Char} (h : c.isDigit = true) :
    digit? 10 c = some (c.toNat - '0'.toNat) := by
  have hrange : '0' ≤ c ∧ c ≤ '9' := by
    obtain ⟨hlo, hhi⟩ := Bool.and_eq_true_iff.mp h
    exact ⟨of_decide_eq_true hlo, of_decide_eq_true hhi⟩
  have hle : c.toNat ≤ 57 := hrange.2
  have hlt : c.toNat - '0'.toNat < 10 := by
    change c.toNat - 48 < 10
    omega
  simp only [digit?, digitValue?, if_pos hrange, Option.filter_some, decide_eq_true hlt, if_true]

/-- Decimal digits are spelled as they are read, without underscores. -/
theorem spellsDigits_of_isDigit {cs : List Char} (hne : cs ≠ [])
    (hdigits : ∀ c ∈ cs, c.isDigit = true) :
    SpellsDigits 10 cs (cs.map fun c => c.toNat - '0'.toNat) := by
  induction cs with
  | nil => exact absurd rfl hne
  | cons c cs ih =>
      obtain ⟨hc, hcs⟩ := List.forall_mem_cons.mp hdigits
      obtain ⟨hd, hdigit⟩ := (digit?_eq_some_iff (by decide)).mp (digit?_of_isDigit hc)
      by_cases hnil : cs = []
      · subst hnil
        exact .last hd hdigit
      · exact .next hd hdigit (ih hnil hcs)

/-- Read from the left, decimal digits have their positional value. -/
theorem ofDigits_reverse_map (cs : List Char) :
    Nat.ofDigits 10 (cs.map fun c => c.toNat - '0'.toNat).reverse = Nat.ofDigitChars 10 cs 0 := by
  simp only [Nat.ofDigits_eq_foldr, List.foldr_reverse, List.foldl_map, Nat.ofDigitChars,
    Nat.cast_id, Nat.add_comm]

/-- The digits of a positive number do not begin with a zero. -/
theorem head?_toDigits {n : Nat} (hn : 0 < n) : (Nat.toDigits 10 n).head? ≠ some '0' := by
  induction n using Nat.base_induction 10 (by decide) with
  | single m hm =>
      rw [Nat.toDigits_of_lt_base hm]
      revert m
      decide
  | digit m k hk hm ih =>
      rw [← Nat.toDigits_append_toDigits (by decide) hm hk,
        List.head?_append_of_ne_nil _ Nat.toDigits_ne_nil]
      exact ih hm

/-- The decimal digits of a natural number spell it, zero by the octal rule. -/
theorem spellsNatural_toDigits (n : Nat) : SpellsNatural (Nat.toDigits 10 n) n := by
  by_cases hzero : n = 0
  · subst hzero
    exact .octal (.last (by decide) (.inl rfl))
  · have hspells := SpellsNatural.decimal (head?_toDigits (Nat.pos_of_ne_zero hzero))
      (spellsDigits_of_isDigit Nat.toDigits_ne_nil fun _ => isDigit_of_mem_toDigits)
    rwa [ofDigits_reverse_map, Nat.ofDigitChars_ten_toDigits] at hspells

/-- The decimal form of an integer spells it. -/
theorem spells_decimal (n : Int) : Spells (decimal n).toList n := by
  cases n with
  | ofNat m =>
      rw [decimal, toList_natural]
      exact .unsigned (spellsNatural_toDigits m)
  | negSucc m =>
      have htext : (decimal (.negSucc m)).toList = '-' :: Nat.toDigits 10 (m + 1) := by
        simp [decimal, toList_natural]
      rw [htext]
      exact .minus (spellsNatural_toDigits (m + 1))

/-! ## the characters of literals -/

/-- The characters that literals are made of. -/
def isLiteralChar (c : Char) : Bool :=
  (digitValue? c).isSome || c == '_' || c == '+' || c == '-'

/-- Digits that have a value are characters of literals, and so are underscores between
them. -/
theorem isLiteralChar_of_magnitude {radix limit acc n : Nat} {cs : List Char}
    (h : magnitude radix limit acc cs = .ok n) : ∀ c ∈ cs, isLiteralChar c = true := by
  induction cs generalizing acc with
  | nil => exact nofun
  | cons c cs ih =>
      rw [magnitude] at h
      refine List.forall_mem_cons.mpr ?_
      split at h
      · next hunderscore => exact ⟨by simp [isLiteralChar, hunderscore], ih h⟩
      · split at h
        · cases h
        · next d hd =>
            have hvalue := (Option.filter_eq_some_iff.mp hd).1
            split at h
            · cases h
            · exact ⟨by simp [isLiteralChar, hvalue], ih h⟩

/-- The letters that mark a radix are characters of literals. -/
theorem isLiteralChar_of_radixMark? {c : Char} {radix : Nat} (h : radixMark? c = some radix) :
    isLiteralChar c = true := by
  have hmarks : c = 'x' ∨ c = 'X' ∨ c = 'o' ∨ c = 'O' ∨ c = 'b' ∨ c = 'B' := by
    unfold radixMark? at h
    grind
  obtain rfl | rfl | rfl | rfl | rfl | rfl := hmarks <;> decide

/-- What is not among the digits of a literal marks its radix. -/
theorem isLiteralChar_or_mem_digits (cs : List Char) :
    ∀ c ∈ cs, isLiteralChar c = true ∨ c ∈ (Body.ofChars cs).digits := by
  have hzero : isLiteralChar '0' = true := by decide
  intro c hc
  unfold Body.ofChars
  split
  · next m d ds =>
      cases hmark : radixMark? m with
      | none => grind
      | some radix =>
          have hm := isLiteralChar_of_radixMark? hmark
          grind
  · grind
  · exact .inr hc

/-- What reads as a natural number is not empty, and made of characters of literals. -/
theorem isLiteralChar_of_readNatural {cs : List Char} {n : Nat} (h : readNatural cs = .ok n) :
    cs ≠ [] ∧ ∀ c ∈ cs, isLiteralChar c = true := by
  constructor
  · rintro rfl
    have herror : readNatural [] = .error .malformed := by decide
    rw [herror] at h
    cases h
  · intro c hc
    simp only [readNatural] at h
    split at h
    · cases h
    · next hmagnitude =>
        exact (isLiteralChar_or_mem_digits cs c hc).elim id
          (isLiteralChar_of_magnitude hmagnitude c)

/-- What reads as an integer is not empty, and made of characters of literals. -/
theorem isLiteralChar_of_readInteger {cs : List Char} {n : Int} (h : readInteger cs = .ok n) :
    cs ≠ [] ∧ ∀ c ∈ cs, isLiteralChar c = true := by
  have hbind {ds : List Char} {f : Nat → Except Error Int}
      (hb : (readNatural ds).bind f = .ok n) : ds ≠ [] ∧ ∀ c ∈ ds, isLiteralChar c = true := by
    cases hr : readNatural ds with
    | error e => rw [hr] at hb; cases hb
    | ok k => exact isLiteralChar_of_readNatural hr
  unfold readInteger at h
  split at h
  · exact ⟨List.cons_ne_nil _ _, List.forall_mem_cons.mpr ⟨by decide, (hbind h).2⟩⟩
  · exact ⟨List.cons_ne_nil _ _, List.forall_mem_cons.mpr ⟨by decide, (hbind h).2⟩⟩
  · exact hbind h

/-- Such characters may stand in a statement, and none of them separates
anything. -/
theorem of_isLiteralChar {c : Char} (h : isLiteralChar c = true) :
    Text.isGraphic c = true ∧ Text.isBlank c = false ∧
      c ≠ '#' ∧ c ≠ ';' ∧ c ≠ '\n' ∧ c ≠ ':' := by
  have hcode : (48 ≤ c.toNat ∧ c.toNat ≤ 57) ∨ (97 ≤ c.toNat ∧ c.toNat ≤ 122) ∨
      (65 ≤ c.toNat ∧ c.toNat ≤ 90) ∨ c.toNat = 95 ∨ c.toNat = 43 ∨ c.toNat = 45 := by
    simp only [isLiteralChar, Bool.or_eq_true, beq_iff_eq] at h
    obtain ((hdigit | rfl) | rfl) | rfl := h
    · unfold digitValue? at hdigit
      split at hdigit
      · next hrange => exact .inl hrange
      · split at hdigit
        · next hrange => exact .inr (.inl hrange)
        · split at hdigit
          · next hrange => exact .inr (.inr (.inl hrange))
          · cases hdigit
    all_goals decide
  have hgraphic : ∀ m < 123, (48 ≤ m ∧ m ≤ 57) ∨ (97 ≤ m ∧ m ≤ 122) ∨ (65 ≤ m ∧ m ≤ 90) ∨
      m = 95 ∨ m = 43 ∨ m = 45 → Text.inRanges Text.graphicRanges m = true := by
    decide +kernel
  refine ⟨?_, ?_, ?_⟩
  · rw [Text.isGraphic, Text.inTable, if_pos (by omega)]
    exact hgraphic c.toNat (by omega) hcode
  · refine Bool.eq_false_iff.mpr fun hblank => ?_
    simp only [Text.isBlank, Bool.or_eq_true, Bool.and_eq_true, decide_eq_true_eq, beq_iff_eq]
      at hblank
    omega
  · refine ⟨?_, ?_, ?_, ?_⟩ <;> (rintro rfl; revert h; decide)

end Numeral

namespace Assembly

variable {text : String} {v : Value}

/-- A spelling of an integer is a literal of it if it is a machine integer, and no
literal otherwise. -/
theorem readLiteral?_of_spells {n : Int} (h : Numeral.Spells text.toList n) :
    readLiteral? text = if Numeral.fits n then some (.int n) else none := by
  have hword {w : String} (hw : Numeral.readInteger w.toList = .error .malformed) :
      text ≠ w := by
    rintro rfl
    rw [Numeral.readInteger_of_spells h, Numeral.checked] at hw
    split at hw <;> cases hw
  have htrue : ¬ (text = "True" ∨ text = "true") :=
    not_or.mpr ⟨hword (by decide), hword (by decide)⟩
  have hfalse : ¬ (text = "False" ∨ text = "false") :=
    not_or.mpr ⟨hword (by decide), hword (by decide)⟩
  rw [readLiteral?, if_neg htrue, if_neg hfalse, Numeral.readInteger_of_spells h, Numeral.checked]
  split <;> rfl

/-- **Literals**: the texts that are read as literals are the spellings of machine
integers and four words. -/
theorem readLiteral?_eq_some_iff :
    readLiteral? text = some v ↔
      (∃ n, v = .int n ∧ Numeral.Spells text.toList n ∧ Numeral.fits n = true) ∨
      (v = .bool true ∧ (text = "True" ∨ text = "true")) ∨
      (v = .bool false ∧ (text = "False" ∨ text = "false")) := by
  constructor
  · intro h
    unfold readLiteral? at h
    split at h
    · next htrue => exact .inr (.inl ⟨(Option.some.inj h).symm, htrue⟩)
    · split at h
      · next hfalse => exact .inr (.inr ⟨(Option.some.inj h).symm, hfalse⟩)
      · obtain ⟨n, hn, rfl⟩ := Option.map_eq_some_iff.mp h
        refine .inl ⟨n, rfl, ?_⟩
        cases hread : Numeral.readInteger text.toList with
        | error e =>
            rw [hread] at hn
            cases hn
        | ok m =>
            rw [hread] at hn
            cases hn
            exact Numeral.readInteger_eq_ok_iff.mp hread
  · rintro (⟨n, rfl, hspells, hfits⟩ | ⟨rfl, htext⟩ | ⟨rfl, htext⟩)
    · rw [readLiteral?_of_spells hspells, if_pos hfits]
    · rw [readLiteral?, if_pos htext]
    · obtain rfl | rfl := htext <;> rfl

/-- A literal is not empty, and made of letters, digits, underscores and signs. -/
theorem isLiteralChar_of_readLiteral? (h : readLiteral? text = some v) :
    text.toList ≠ [] ∧ ∀ c ∈ text.toList, Numeral.isLiteralChar c = true := by
  have hword (w : String) (hw : w.toList ≠ [] ∧ w.toList.all Numeral.isLiteralChar = true) :
      w.toList ≠ [] ∧ ∀ c ∈ w.toList, Numeral.isLiteralChar c = true :=
    hw.imp_right List.all_eq_true.mp
  obtain ⟨n, -, hn⟩ | ⟨-, rfl | rfl⟩ | ⟨-, rfl | rfl⟩ := readLiteral?_eq_some_iff.mp h
  · exact Numeral.isLiteralChar_of_readInteger (Numeral.readInteger_eq_ok_iff.mpr hn)
  all_goals exact hword _ (by decide)

/-- **Decimal literals**: the decimal form of a machine integer is a literal of it. -/
theorem readLiteral?_decimal {n : Int} (h : Numeral.fits n = true) :
    readLiteral? (Numeral.decimal n) = some (.int n) :=
  readLiteral?_eq_some_iff.mpr (.inl ⟨n, rfl, Numeral.spells_decimal n, h⟩)

end Assembly

/-! ## lines with a literal -/

namespace Text

/-- White space at the end is trimmed, down to the last other character. -/
theorem trimEnd_append {cs blanks : List Char} {c : Char} (hc : isBlank c = false)
    (hblanks : ∀ b ∈ blanks, isBlank b = true) : trimEnd (cs ++ [c] ++ blanks) = cs ++ [c] := by
  have hreverse : ∀ b ∈ blanks.reverse, isBlank b = true := fun b hb =>
    hblanks b (List.mem_reverse.mp hb)
  simp [trimEnd, List.dropWhile_append_of_pos hreverse, hc]

/-- Lines without newlines are read back from their text, with an empty line behind
them. -/
theorem lines_unlines {ls : List String} (h : ∀ l ∈ ls, '\n' ∉ l.toList) :
    lines (unlines ls).toList = ls.map String.toList ++ [[]] := by
  induction ls with
  | nil => rfl
  | cons l ls ih =>
      obtain ⟨hl, hls⟩ := List.forall_mem_cons.mp h
      have hone : lines l.toList = [l.toList] :=
        splitWhere_eq_singleton fun c hc => by
          simpa using fun he : c = '\n' => hl (he ▸ hc)
      have hunlines : unlines (l :: ls) = l ++ "\n" ++ unlines ls := by simp [unlines]
      rw [hunlines, lines_append, hone, ih hls]
      rfl

end Text

namespace Statement

variable {lit lit' : String} {v v' : Value}

/-- The statement of a constant is what is left of it when it is trimmed. -/
theorem trim_const (h : Assembly.readLiteral? lit = some v) (blanks : List Char)
    (hblanks : ∀ b ∈ blanks, Text.isBlank b = true) :
    Text.trim (("    const " ++ lit).toList ++ blanks) = ("const " ++ lit).toList := by
  obtain ⟨hne, hchars⟩ := Assembly.isLiteralChar_of_readLiteral? h
  have hfront : (("    const " ++ lit).toList ++ blanks).dropWhile Text.isBlank =
      ("const " ++ lit).toList ++ blanks := by
    simp only [String.toList_append, List.append_assoc]
    rfl
  obtain ⟨cs, c, hcs⟩ : ∃ cs c, lit.toList = cs ++ [c] :=
    ⟨_, _, (List.dropLast_append_getLast hne).symm⟩
  have hc : Text.isBlank c = false := (Numeral.of_isLiteralChar (hchars c (by simp [hcs]))).2.1
  rw [Text.trim, hfront, String.toList_append, hcs, ← List.append_assoc,
    Text.trimEnd_append hc hblanks]

theorem isContent_const (lit : String) : isContent ("const " ++ lit).toList = true := by
  rw [String.toList_append]
  rfl

/-- A line with a constant holds graphic characters only, none of which ends a statement
or begins a comment. -/
theorem of_mem_const (h : Assembly.readLiteral? lit = some v) {line : String} {c : Char}
    (hline : line = "    const " ∨ line = "const ") (hc : c ∈ (line ++ lit).toList) :
    Text.isGraphic c = true ∧ c ≠ '#' ∧ c ≠ ';' ∧ c ≠ '\n' ∧ c ≠ ':' := by
  rw [String.toList_append] at hc
  obtain hfront | hlit := List.mem_append.mp hc
  · have hall : line.toList.all (fun c =>
        Text.isGraphic c = true ∧ c ≠ '#' ∧ c ≠ ';' ∧ c ≠ '\n' ∧ c ≠ ':') = true := by
      obtain rfl | rfl := hline <;> decide +kernel
    exact of_decide_eq_true (List.all_eq_true.mp hall c hfront)
  · obtain ⟨hgraphic, _, hrest⟩ :=
      Numeral.of_isLiteralChar ((Assembly.isLiteralChar_of_readLiteral? h).2 c hlit)
    exact ⟨hgraphic, hrest⟩

/-- The line of a constant is one statement. -/
theorem pieces_const (h : Assembly.readLiteral? lit = some v) :
    pieces ("    const " ++ lit).toList = [("const " ++ lit).toList] := by
  have htrim := trim_const h [] nofun
  rw [List.append_nil] at htrim
  rw [pieces, beforeComment_eq_self fun c hc => (of_mem_const h (.inl rfl) hc).2.1,
    Text.splitWhere_eq_singleton fun c hc => by simpa using (of_mem_const h (.inl rfl) hc).2.2.1,
    List.map_singleton, htrim, List.filter_cons_of_pos (isContent_const lit)]
  rfl

/-- What follows the constant on its line is read as if it were alone. -/
theorem pieces_const_append (h : Assembly.readLiteral? lit = some v) {rest : String}
    (hrest : '#' ∉ rest.toList) :
    pieces ("    const " ++ lit ++ (" ;" ++ rest)).toList =
      ("const " ++ lit).toList :: pieces rest.toList := by
  have hline : ("    const " ++ lit ++ (" ;" ++ rest)).toList =
      (("    const " ++ lit).toList ++ [' ']) ++ ';' :: rest.toList := by
    simp
  have hrest : ∀ c ∈ rest.toList, c ≠ '#' := fun c hc he => hrest (he ▸ hc)
  have hcomment : ∀ c ∈ (("    const " ++ lit).toList ++ [' ']) ++ ';' :: rest.toList, c ≠ '#' := by
    intro c hc
    simp only [List.mem_append, List.mem_cons, List.not_mem_nil, or_false] at hc
    obtain (hc | rfl) | rfl | hc := hc
    · exact (of_mem_const h (.inl rfl) hc).2.1
    · decide
    · decide
    · exact hrest c hc
  have hone : ∀ c ∈ ("    const " ++ lit).toList ++ [' '], (c == ';') = false := by
    intro c hc
    simp only [List.mem_append, List.mem_singleton] at hc
    obtain hc | rfl := hc
    · simpa using (of_mem_const h (.inl rfl) hc).2.2.1
    · decide
  rw [pieces, hline, beforeComment_eq_self hcomment, Text.splitWhere_append rfl,
    Text.splitWhere_eq_singleton hone, List.singleton_append, List.map_cons,
    trim_const h [' '] (List.forall_mem_singleton.mpr rfl),
    List.filter_cons_of_pos (isContent_const lit), pieces, beforeComment_eq_self hrest]

/-- The statement of a constant is an operation. -/
theorem kindOf_const (h : Assembly.readLiteral? lit = some v) :
    kindOf ("const " ++ lit).toList = .operation := by
  have hlegal : illegalChar? ("const " ++ lit).toList = none :=
    illegalChar?_eq_none_iff.mpr fun c hc => .inr (of_mem_const h (.inr rfl) hc).1
  have hcolon : ("const " ++ lit).toList.getLast? ≠ some ':' := fun hlast =>
    (of_mem_const h (.inr rfl) (List.mem_of_getLast? hlast)).2.2.2.2 rfl
  rw [kindOf, hlegal, if_neg hcolon]
  rfl

/-- The statement of a constant is its opcode and its literal. -/
theorem fields_const (h : Assembly.readLiteral? lit = some v) (source : String) (line : Nat) :
    (ofChars source line ("const " ++ lit).toList).fields = ["const", lit] := by
  obtain ⟨hne, hchars⟩ := Assembly.isLiteralChar_of_readLiteral? h
  have hlit : Text.splitWhere Text.isBlank lit.toList = [lit.toList] :=
    Text.splitWhere_eq_singleton fun c hc => (Numeral.of_isLiteralChar (hchars c hc)).2.1
  have hwords : Text.words ("const " ++ lit).toList = ["const".toList, lit.toList] := by
    have htext : ("const " ++ lit).toList = "const".toList ++ ' ' :: lit.toList := by simp
    rw [Text.words, htext, Text.splitWhere_append (by decide), hlit]
    simp [hne, Text.splitWhere, Text.isBlank]
  simp only [fields, ofChars, hwords, List.map_cons, List.map_nil, String.ofList_toList]

/-- The statement of a constant brings the value that its literal denotes. -/
theorem literal?_const (h : Assembly.readLiteral? lit = some v) (source : String)
    (line : Nat) : (ofChars source line ("const " ++ lit).toList).literal? = some v := by
  have hfields := fields_const h source line
  have hkind : (ofChars source line ("const " ++ lit).toList).kind = .operation := kindOf_const h
  have hmnemonic : (ofChars source line ("const " ++ lit).toList).mnemonic = "const" := by
    rw [mnemonic, hfields]
    rfl
  refine literal?_eq_some_iff.mpr ⟨?_, lit, ?_, h⟩
  · rw [isConst, hkind, hmnemonic]
    rfl
  · rw [arguments, hfields]
    rfl

/-! ## matching lines -/

/-- Lines with the same statements, except that the literals of constants may
differ. -/
structure LineMatches (l l' : String) : Prop where
  unbroken : '\n' ∉ l.toList → '\n' ∉ l'.toList
  pieces : List.Forall₂
    (fun cs cs' => ∀ source source' m m',
      (ofChars source m cs).Matches (ofChars source' m' cs'))
    (pieces l.toList) (Statement.pieces l'.toList)

/-- The values that the constants of a line denote. -/
def lineLiterals (l : String) : List Value :=
  (pieces l.toList).filterMap fun cs => (ofChars "" 0 cs).literal?

/-- A line matches itself. -/
theorem LineMatches.refl (l : String) : LineMatches l l :=
  ⟨id, List.forall₂_same.mpr fun _ _ _ _ _ _ => ⟨rfl, .inl rfl⟩⟩

instance : Std.Refl LineMatches where
  refl := .refl

/-- Constants match, whatever their literals are. -/
theorem matches_const (h : Assembly.readLiteral? lit = some v)
    (h' : Assembly.readLiteral? lit' = some v') (source source' : String) (m m' : Nat) :
    (ofChars source m ("const " ++ lit).toList).Matches
      (ofChars source' m' ("const " ++ lit').toList) := by
  refine ⟨?_, .inr ⟨?_, ?_⟩⟩
  · exact (kindOf_const h').trans (kindOf_const h).symm
  · rw [literal?_const h]
    rfl
  · rw [literal?_const h']
    rfl

/-- A line with a constant matches the line with another literal. -/
theorem lineMatches_const (h : Assembly.readLiteral? lit = some v)
    (h' : Assembly.readLiteral? lit' = some v') :
    LineMatches ("    const " ++ lit) ("    const " ++ lit') := by
  refine ⟨fun _ hc => (of_mem_const h' (.inl rfl) hc).2.2.2.1 rfl, ?_⟩
  rw [pieces_const h, pieces_const h']
  exact .cons (matches_const h h') .nil

/-- A line with more statements behind the constant matches the one with another
literal. -/
theorem lineMatches_const_append (h : Assembly.readLiteral? lit = some v)
    (h' : Assembly.readLiteral? lit' = some v') {rest : String}
    (hcomment : '#' ∉ rest.toList) (hrest : '\n' ∉ rest.toList) :
    LineMatches ("    const " ++ lit ++ (" ;" ++ rest))
      ("    const " ++ lit' ++ (" ;" ++ rest)) := by
  constructor
  · intro _ hc
    rw [String.toList_append] at hc
    obtain hc | hc := List.mem_append.mp hc
    · exact (of_mem_const h' (.inl rfl) hc).2.2.2.1 rfl
    · exact hrest (by simpa using hc)
  · rw [pieces_const_append h hcomment, pieces_const_append h' hcomment]
    exact .cons (matches_const h h') (LineMatches.refl rest).pieces

/-- The literal of a line with a constant is that of the constant. -/
theorem lineLiterals_const (h : Assembly.readLiteral? lit = some v) :
    lineLiterals ("    const " ++ lit) = [v] := by
  simp only [lineLiterals, pieces_const h, List.filterMap_cons, literal?_const h,
    List.filterMap_nil]

/-- The literals of a line with more statements are that of the constant and the
others. -/
theorem lineLiterals_const_append (h : Assembly.readLiteral? lit = some v) {rest : String}
    (hrest : '#' ∉ rest.toList) :
    lineLiterals ("    const " ++ lit ++ (" ;" ++ rest)) = v :: lineLiterals rest := by
  simp only [lineLiterals, pieces_const_append h hrest, List.filterMap_cons, literal?_const h]

/-! ## matching texts -/

/-- Lines that match are read as statements that match. -/
theorem matches_ofLines {ls ls' : List String} (h : List.Forall₂ LineMatches ls ls')
    (source source' : String) (m m' : Nat) :
    List.Forall₂ Matches (ofLines source m (ls.map String.toList))
      (ofLines source' m' (ls'.map String.toList)) := by
  induction h generalizing m m' with
  | nil => exact .nil
  | cons hl hls ih =>
      simp only [List.map_cons, ofLines]
      refine List.rel_append ?_ (ih (m + 1) (m' + 1))
      rw [List.forall₂_map_left_iff, List.forall₂_map_right_iff]
      exact hl.pieces.imp fun cs cs' hcs => hcs source source' m m'

/-- What matches a statement of legal characters has legal characters. -/
theorem Matches.legal {s s' : Statement} (h : s.Matches s') (hkind : s.kind = kindOf s.text.toList)
    (hkind' : s'.kind = kindOf s'.text.toList) (hlegal : illegalChar? s.text.toList = none) :
    illegalChar? s'.text.toList = none := by
  have hne : s.kind ≠ .illegal := by
    rw [hkind, kindOf, hlegal, Option.isSome_none, if_neg Bool.false_ne_true]
    split <;> simp
  rw [← h.kind, hkind', kindOf] at hne
  cases hchar : illegalChar? s'.text.toList with
  | none => rfl
  | some c => simp [hchar] at hne

/-- The literals of a text are those of its lines. -/
theorem filterMap_literal?_ofLines (source : String) (m : Nat) (ls : List String) :
    (ofLines source m (ls.map String.toList)).filterMap literal? = ls.flatMap lineLiterals := by
  induction ls generalizing m with
  | nil => rfl
  | cons l ls ih =>
      rw [List.map_cons, ofLines, List.filterMap_append, ih, List.flatMap_cons, List.filterMap_map]
      rfl

end Statement

/-- Every element of the second list is related to one of the first. -/
theorem exists_mem_of_forall₂ {α : Type} {R : α → α → Prop} {xs ys : List α} {y : α}
    (h : List.Forall₂ R xs ys) (hy : y ∈ ys) : ∃ x ∈ xs, R x y := by
  induction h with
  | nil => cases hy
  | @cons x _ xs _ hR _ ih =>
      cases hy with
      | head => exact ⟨x, List.mem_cons_self, hR⟩
      | tail _ hy =>
          obtain ⟨z, hz, hzy⟩ := ih hy
          exact ⟨z, List.mem_cons_of_mem x hz, hzy⟩

/-- A text made of lines is read line by line. -/
theorem Statement.read_unlines {ls : List String} (h : ∀ l ∈ ls, '\n' ∉ l.toList)
    (source : String) :
    read source (Text.unlines ls) = ofLines source 1 (ls.map String.toList) := by
  rw [read, Text.lines_unlines h, ofLines_append]
  exact List.append_nil _

/-- **Other literals**: a text whose lines match those of an accepted one is
accepted.  Its program differs in the constants only, and these are what its
literals denote. -/
theorem Program.assemble_of_matches {source source' : String} {ls ls' : List String} {p : Program}
    (hp : assemble source (Text.unlines ls) = .ok p) (hls : ∀ l ∈ ls, '\n' ∉ l.toList)
    (h : List.Forall₂ Statement.LineMatches ls ls') :
    ∃ p', assemble source' (Text.unlines ls') = .ok p' ∧ p'.code = p.code ∧
      p'.constants = ls'.flatMap Statement.lineLiterals ∧ p'.main = p.main := by
  have hls' : ∀ l ∈ ls', '\n' ∉ l.toList := by
    intro l' hl'
    obtain ⟨l, hl, hmatches⟩ := exists_mem_of_forall₂ h hl'
    exact hmatches.unbroken (hls l hl)
  have hassembles := Assembly.assembles_of_ofStatements hp
  have hmatches := Statement.matches_ofLines h source source' 1 1
  rw [← Statement.read_unlines hls, ← Statement.read_unlines hls'] at hmatches
  have hlegal : ∀ s ∈ Statement.read source' (Text.unlines ls'),
      Statement.illegalChar? s.text.toList = none := by
    intro s' hs'
    obtain ⟨s, hs, hmatch⟩ := exists_mem_of_forall₂ hmatches hs'
    exact hmatch.legal (Statement.kind_eq_of_mem_read hs) (Statement.kind_eq_of_mem_read hs')
      (Assembly.illegalReports_eq_nil_iff.mp hassembles.legal s hs)
  obtain ⟨p', hp', hcode, hconstants, hmain⟩ := hassembles.of_matches hmatches hlegal
  rw [Statement.read_unlines hls', Statement.filterMap_literal?_ofLines] at hconstants
  exact ⟨p', (Assembly.ofStatements_eq_ok_iff (by decide)).mpr hp', hcode, hconstants, hmain⟩

end SecdMachine
