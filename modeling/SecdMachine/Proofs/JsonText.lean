import SecdMachine.Json
import SecdMachine.Proofs.Acceptance

/-!
# SecdMachine.Proofs.JsonText

Reading JSON texts back.

A text is first cut into tokens (`Json.scan`), and the tokens are then put
together to a document (`Json.readValue`), with the arrays and objects that are
still open kept on a stack.  White space between tokens does not count, so the
compact and the indented text of a document are cut into the same tokens
(`spells_compact`, `spells_indented`), and both are read as the document
(`read?_compact`, `read?_indented_append`).

Only a number or a boolean can run on into what stands behind it.  `Json.Spells`
says which tokens a text is cut into where this does not happen, and
`Json.Separates` the same of texts that nothing runs on into or out of; the
laws of the two under `++` carry the argument.
-/

namespace SecdMachine

/-! ## numerals -/

theorem Numeral.toList_natural (n : Nat) : (natural n).toList = Nat.toDigits 10 n :=
  String.toList_ofList

/-- The decimal form of a number consists of digits. -/
theorem Numeral.isDigit_of_mem_toDigits {n : Nat} {c : Char} (h : c ∈ Nat.toDigits 10 n) :
    c.isDigit = true :=
  Nat.isDigit_of_mem_toDigits (by decide) (by decide) h

/-- The digits of a natural number are read as the number. -/
theorem Numeral.readDigits?_toDigits (n : Nat) : readDigits? (Nat.toDigits 10 n) = some n := by
  rw [readDigits?_eq_some_iff]
  refine ⟨⟨Nat.toDigits_ne_nil, fun c hc => isDigit_of_mem_toDigits hc⟩, ?_⟩
  exact (Nat.ofDigitChars_toDigits (by decide) (by decide)).symm

namespace Json

/-! ## tokens -/

/-- The tokens of a JSON text. -/
inductive Token where
  | bool (b : Bool)
  | number (n : Int)
  | string (s : String)
  | arrayStart
  | arrayEnd
  | objectStart
  | objectEnd
  | comma
  | colon
deriving DecidableEq, Repr

/-- The white space between tokens. -/
def isSpace (c : Char) : Bool :=
  c == ' ' || c == '\n' || c == '\t' || c == '\r'

/-- The token that is a single character. -/
def mark? : Char → Option Token
  | '[' => some .arrayStart
  | ']' => some .arrayEnd
  | '\x7b' => some .objectStart
  | '\x7d' => some .objectEnd
  | ',' => some .comma
  | ':' => some .colon
  | _ => none

/-- Whether a character belongs to a word: it is no space, no mark and no
quote. -/
def isWord (c : Char) : Bool :=
  !isSpace c && (mark? c).isNone && c != '"'

/-- The token of a word, which is a boolean or an integer. -/
def wordToken? : List Char → Option Token
  | ['t', 'r', 'u', 'e'] => some (.bool true)
  | ['f', 'a', 'l', 's', 'e'] => some (.bool false)
  | '-' :: cs => (Numeral.readDigits? cs).map fun n => .number (-n)
  | cs => (Numeral.readDigits? cs).map fun n => .number n

/-- The character of an escape of one letter. -/
def escaped? (c : Char) : Option Char :=
  match c with
  | '"' | '\\' | '/' => some c
  | 'b' => some '\x08'
  | 'f' => some '\x0c'
  | 'n' => some '\n'
  | 'r' => some '\r'
  | 't' => some '\t'
  | _ => none

/-- The character of an escape of hexadecimal digits. -/
def hexChar? (digits : List Char) : Option Char :=
  (digits.foldlM (fun n c => (Numeral.digit? 16 c).map (16 * n + ·)) 0).map Char.ofNat

/-- Reads a string up to its closing quote, and gives what follows the quote. -/
def readString? : List Char → Option (List Char × List Char)
  | [] => none
  | '"' :: cs => some ([], cs)
  | '\\' :: 'u' :: a :: b :: c :: d :: cs =>
    (hexChar? [a, b, c, d]).bind fun x => (readString? cs).map fun r => (x :: r.1, r.2)
  | '\\' :: c :: cs =>
    (escaped? c).bind fun x => (readString? cs).map fun r => (x :: r.1, r.2)
  | c :: cs => (readString? cs).map fun r => (c :: r.1, r.2)

/-- Reading a string uses up at least its closing quote. -/
theorem length_of_readString? {cs s rest : List Char} (h : readString? cs = some (s, rest)) :
    rest.length < cs.length := by
  fun_induction readString? cs generalizing s with
  | case1 => cases h
  | case2 cs =>
      cases h
      exact Nat.lt_succ_self _
  | case3 a b c d cs ih | case4 c cs hne ih =>
      simp only [Option.bind_eq_some_iff, Option.map_eq_some_iff] at h
      obtain ⟨x, _, ⟨s', rest'⟩, hr, he⟩ := h
      cases he
      have hlt : rest'.length < cs.length := ih hr
      simp only [List.length_cons]
      omega
  | case5 c cs hquote hhex hescape ih =>
      simp only [Option.map_eq_some_iff] at h
      obtain ⟨⟨s', rest'⟩, hr, he⟩ := h
      cases he
      exact Nat.lt_succ_of_lt (ih hr)

/-- Cuts a text into its tokens. -/
def scan : List Char → Option (List Token)
  | [] => some []
  | c :: cs =>
    if isSpace c then scan cs
    else if c = '"' then
      match _hread : readString? cs with
      | some (s, rest) => (scan rest).map (.string (String.ofList s) :: ·)
      | none => none
    else
      match mark? c with
      | some t => (scan cs).map (t :: ·)
      | none =>
        match wordToken? (c :: cs.takeWhile isWord) with
        | some t => (scan (cs.dropWhile isWord)).map (t :: ·)
        | none => none
termination_by cs => cs.length
decreasing_by
  · exact Nat.lt_succ_self _
  · exact Nat.lt_succ_of_lt (length_of_readString? _hread)
  · exact Nat.lt_succ_self _
  · exact Nat.lt_succ_of_le (List.dropWhile_sublist isWord).length_le

/-! ## cutting off a token -/

variable {c : Char} {cs rest : List Char} {t : Token}

/-- White space between tokens is skipped. -/
theorem scan_space (h : isSpace c = true) : scan (c :: cs) = scan cs := by
  rw [scan, if_pos h]

/-- A punctuation mark is a token by itself. -/
theorem scan_mark (h : mark? c = some t) : scan (c :: cs) = (scan cs).map (t :: ·) := by
  unfold mark? at h
  split at h <;> cases h <;> rw [scan] <;> rfl

/-- A character is read from its form inside quotes. -/
theorem readString?_escapeChar (c : Char) (cs : List Char) :
    readString? (escapeChar c ++ cs) = (readString? cs).map fun r => (c :: r.1, r.2) := by
  unfold escapeChar
  split
  · next h => obtain rfl | rfl := h <;> rfl
  · next hplain =>
      obtain ⟨hquote, hslash⟩ := not_or.mp hplain
      split
      · next hlow =>
          have hdigits : ∀ n < 0x20, Text.hexadecimal 4 n =
              ['0', '0', Nat.digitChar (n / 16), Nat.digitChar (n % 16)] := by decide
          have hvalue : ∀ n < 0x20,
              hexChar? ['0', '0', Nat.digitChar (n / 16), Nat.digitChar (n % 16)] =
                some (Char.ofNat n) := by decide
          rw [hdigits _ hlow]
          simp only [List.cons_append, List.nil_append, readString?, hvalue _ hlow,
            Char.ofNat_toNat, Option.bind_some]
      · rw [List.singleton_append, readString?]
        · exact hquote
        · exact fun _ _ _ _ _ he _ => hslash he
        · exact fun _ _ he _ => hslash he

/-- What stands between quotes is read back, up to the closing quote and no further. -/
theorem readString?_quoted (s rest : List Char) :
    readString? (s.flatMap escapeChar ++ '"' :: rest) = some (s, rest) := by
  induction s with
  | nil => rfl
  | cons c s ih =>
      rw [List.flatMap_cons, List.append_assoc, readString?_escapeChar, ih]
      rfl

/-- A quoted string is cut off as one token, whatever follows it. -/
theorem scan_quote (s : String) (rest : List Char) :
    scan ((quote s).toList ++ rest) = (scan rest).map (.string s :: ·) := by
  have htext : (quote s).toList ++ rest =
      '"' :: (s.toList.flatMap escapeChar ++ '"' :: rest) := by
    simp [quote]
  rw [htext, scan, if_neg (by decide), if_pos rfl]
  split
  · next hread =>
      rw [readString?_quoted] at hread
      cases hread
      rw [String.ofList_toList]
  · next hread =>
      rw [readString?_quoted] at hread
      cases hread

/-- A text that does not continue a word before it. -/
def Ended (cs : List Char) : Prop :=
  ∀ c ∈ cs.head?, isWord c = false

/-- A word is cut off as one token where the text behind it does not continue it. -/
theorem scan_word {w : List Char} (hword : ∀ c ∈ w, isWord c = true)
    (ht : wordToken? w = some t) (hend : Ended rest) :
    scan (w ++ rest) = (scan rest).map (t :: ·) := by
  have hrest : rest.takeWhile isWord = [] ∧ rest.dropWhile isWord = rest := by
    cases rest with
    | nil => exact ⟨rfl, rfl⟩
    | cons d rest =>
        have hd : isWord d = false := hend d rfl
        simp [hd]
  cases w with
  | nil => cases ht
  | cons c w =>
      have hw : ∀ d ∈ w, isWord d = true := fun d hd => hword d (List.mem_cons_of_mem c hd)
      have hc := hword c List.mem_cons_self
      simp only [isWord, Bool.and_eq_true, Bool.not_eq_true', Option.isNone_iff_eq_none,
        bne_iff_ne] at hc
      obtain ⟨⟨hspace, hmark⟩, hquote⟩ := hc
      rw [List.cons_append, scan, if_neg (Bool.eq_false_iff.mp hspace), if_neg hquote, hmark]
      simp only [List.takeWhile_append_of_pos hw, List.dropWhile_append_of_pos hw, hrest,
        List.append_nil, ht]

/-! ## the tokens of a text -/

/-- `Spells s ts`: the text `s` is cut into the tokens `ts` wherever nothing
behind it continues its last word. -/
def Spells (s : String) (ts : List Token) : Prop :=
  ∀ rest, Ended rest → scan (s.toList ++ rest) = (scan rest).map (ts ++ ·)

/-- `Separates s ts`: the text `s` is cut into the tokens `ts` whatever stands
behind it, and it ends a word that stands before it. -/
def Separates (s : String) (ts : List Token) : Prop :=
  ∀ rest, Ended (s.toList ++ rest) ∧ scan (s.toList ++ rest) = (scan rest).map (ts ++ ·)

variable {s s' sep : String} {ts ts' us : List Token}

/-- What is cut off before any rest is cut off before a rest that ends words. -/
theorem Separates.spells (h : Separates s ts) : Spells s ts :=
  fun rest _ => (h rest).2

/-- Separators one after the other separate. -/
theorem Separates.append (h : Separates s ts) (h' : Separates s' ts') :
    Separates (s ++ s') (ts ++ ts') := by
  intro rest
  rw [String.toList_append, List.append_assoc]
  refine ⟨(h _).1, ?_⟩
  rw [(h _).2, (h' rest).2]
  simp [Function.comp_def]

/-- A separator may stand in front of a word. -/
theorem Separates.append_spells (h : Separates s ts) (h' : Spells s' ts') :
    Spells (s ++ s') (ts ++ ts') := by
  intro rest hend
  rw [String.toList_append, List.append_assoc, (h _).2, h' rest hend]
  simp [Function.comp_def]

/-- A separator may stand behind a word, which it ends. -/
theorem Spells.append_separates (h : Spells s ts) (h' : Separates s' ts') :
    Spells (s ++ s') (ts ++ ts') := by
  intro rest hend
  rw [String.toList_append, List.append_assoc, h _ (h' rest).1, (h' rest).2]
  simp [Function.comp_def]

/-- Two texts with a separator between them. -/
theorem Spells.append_spells (h : Spells s ts) (hsep : Separates sep us) (h' : Spells s' ts') :
    Spells (s ++ sep ++ s') (ts ++ us ++ ts') := by
  intro rest hend
  rw [String.toList_append, String.toList_append, List.append_assoc, List.append_assoc,
    h _ (hsep _).1, (hsep _).2, h' rest hend]
  simp [Function.comp_def]

/-- A punctuation mark separates. -/
theorem separates_mark (hs : s.toList = [c]) (h : mark? c = some t) : Separates s [t] := by
  intro rest
  rw [hs]
  refine ⟨?_, scan_mark h⟩
  rintro d hd
  cases hd
  simp [isWord, h]

/-- White space separates, and gives no token. -/
theorem separates_spaces (hs : s.toList ≠ []) (h : ∀ c ∈ s.toList, isSpace c = true) :
    Separates s [] := by
  have hscan : ∀ cs : List Char, (∀ c ∈ cs, isSpace c = true) →
      ∀ rest, scan (cs ++ rest) = scan rest := by
    intro cs hcs rest
    induction cs with
    | nil => rfl
    | cons c cs ih =>
        rw [List.cons_append, scan_space (hcs c List.mem_cons_self),
          ih fun d hd => hcs d (List.mem_cons_of_mem c hd)]
  intro rest
  refine ⟨?_, by simpa using hscan s.toList h rest⟩
  cases hcs : s.toList with
  | nil => exact absurd hcs hs
  | cons c cs =>
      rintro d hd
      cases hd
      have hspace : isSpace c = true := h c (by simp [hcs])
      simp [isWord, hspace]

theorem separates_arrayStart : Separates "[" [.arrayStart] := separates_mark rfl rfl

theorem separates_arrayEnd : Separates "]" [.arrayEnd] := separates_mark rfl rfl

theorem separates_objectStart : Separates "\x7b" [.objectStart] := separates_mark rfl rfl

theorem separates_objectEnd : Separates "\x7d" [.objectEnd] := separates_mark rfl rfl

theorem separates_comma : Separates "," [.comma] := separates_mark rfl rfl

theorem separates_colon : Separates ":" [.colon] := separates_mark rfl rfl

theorem separates_newline (depth : Nat) : Separates (newline depth) [] :=
  separates_spaces (by simp [newline]) (by simp [newline, isSpace])

/-- A quoted string separates: its quotes do not continue a word. -/
theorem separates_quote (s : String) : Separates (quote s) [.string s] := by
  intro rest
  refine ⟨?_, scan_quote s rest⟩
  simp [quote, Ended, isWord]

/-! ## words -/

/-- Digits are characters of words. -/
theorem isWord_of_isDigit (h : c.isDigit = true) : isWord c = true := by
  have hne : ∀ d : Char, d.isDigit = false → c ≠ d := by
    rintro d hd rfl
    rw [hd] at h
    contradiction
  have hmark : mark? c = none := by
    unfold mark?
    split
    case h_7 => rfl
    all_goals exact absurd rfl (hne _ (by decide))
  have hspace : isSpace c = false := by
    simp [isSpace, hne ' ' (by decide), hne '\n' (by decide), hne '\t' (by decide),
      hne '\r' (by decide)]
  simp [isWord, hspace, hmark, hne '"' (by decide)]

/-- A word of digits is the token of the number that they spell. -/
theorem wordToken?_of_readDigits? {n : Nat} (h : Numeral.readDigits? cs = some n) :
    wordToken? cs = some (.number n) := by
  unfold wordToken?
  split
  · cases h
  · cases h
  · cases h
  · rw [h]
    rfl

/-- An integer in decimal is the token of the number, with its sign. -/
theorem spells_decimal (n : Int) : Spells (Numeral.decimal n) [.number n] := by
  intro rest hend
  cases n with
  | ofNat n =>
      rw [Numeral.decimal, Numeral.toList_natural]
      refine scan_word (fun c hc => isWord_of_isDigit (Numeral.isDigit_of_mem_toDigits hc)) ?_ hend
      exact wordToken?_of_readDigits? (Numeral.readDigits?_toDigits n)
  | negSucc n =>
      have htext : (Numeral.decimal (.negSucc n)).toList = '-' :: Nat.toDigits 10 (n + 1) := by
        rw [Numeral.decimal, String.toList_append, Numeral.toList_natural]
        rfl
      have htoken : wordToken? ('-' :: Nat.toDigits 10 (n + 1)) = some (.number (.negSucc n)) := by
        simp only [wordToken?, Numeral.readDigits?_toDigits]
        rfl
      rw [htext]
      refine scan_word (fun c hc => ?_) htoken hend
      cases hc with
      | head => decide
      | tail _ hc => exact isWord_of_isDigit (Numeral.isDigit_of_mem_toDigits hc)

/-- The text of a Boolean is its token. -/
theorem spells_boolText (b : Bool) : Spells (boolText b) [.bool b] := by
  intro rest hend
  cases b with
  | true =>
      have hword : ∀ c ∈ ['t', 'r', 'u', 'e'], isWord c = true := by
        simp [isWord, isSpace, mark?]
      exact scan_word hword rfl hend
  | false =>
      have hword : ∀ c ∈ ['f', 'a', 'l', 's', 'e'], isWord c = true := by
        simp [isWord, isSpace, mark?]
      exact scan_word hword rfl hend

/-! ## the tokens of a document -/

/-- A property of documents holds of all of them if it is handed on from the
items of an array and the fields of an object. -/
@[elab_as_elim]
theorem induction {motive : Json → Prop} (bool : ∀ b, motive (.bool b))
    (number : ∀ n, motive (.number n)) (string : ∀ s, motive (.string s))
    (array : ∀ items, (∀ j ∈ items, motive j) → motive (.array items))
    (object : ∀ fields, (∀ f ∈ fields, motive f.2) → motive (.object fields)) :
    (j : Json) → motive j
  | .bool b => bool b
  | .number n => number n
  | .string s => string s
  | .array items => array items fun j _ => induction bool number string array object j
  | .object fields => object fields fun f _ => induction bool number string array object f.2
termination_by j => sizeOf j
decreasing_by
  · next hj =>
      have hlt := List.sizeOf_lt_of_mem hj
      simp only [Json.array.sizeOf_spec]
      omega
  · next hf =>
      have hlt := List.sizeOf_lt_of_mem hf
      have hfield : sizeOf f = 1 + sizeOf f.1 + sizeOf f.2 := rfl
      simp only [Json.object.sizeOf_spec]
      omega

/-- Groups of tokens with commas between them. -/
def separated : List (List Token) → List Token
  | [] => []
  | ts :: tss => ts ++ tss.flatMap (.comma :: ·)

mutual
/-- The tokens of a document. -/
def tokens : Json → List Token
  | .bool b => [.bool b]
  | .number n => [.number n]
  | .string s => [.string s]
  | .array items => [.arrayStart] ++ separated (itemTokens items) ++ [.arrayEnd]
  | .object fields => [.objectStart] ++ separated (fieldTokens fields) ++ [.objectEnd]

/-- The tokens of the items of an array. -/
def itemTokens : List Json → List (List Token)
  | [] => []
  | j :: js => tokens j :: itemTokens js

/-- The tokens of the fields of an object. -/
def fieldTokens : List (String × Json) → List (List Token)
  | [] => []
  | (name, j) :: fs => (.string name :: .colon :: tokens j) :: fieldTokens fs
end

theorem itemTokens_eq_map (js : List Json) : itemTokens js = js.map tokens := by
  induction js with
  | nil => rfl
  | cons j js ih => simp [itemTokens, ih]

theorem fieldTokens_eq_map (fs : List (String × Json)) :
    fieldTokens fs = fs.map fun f => .string f.1 :: .colon :: tokens f.2 := by
  induction fs with
  | nil => rfl
  | cons f fs ih => simp [fieldTokens, ih]

/-- The parts of an array or object, with commas between them. -/
theorem spells_join {α : Type} {f : α → String} {g : α → List Token} {xs : List α}
    (h : ∀ x ∈ xs, Spells (f x) (g x)) :
    Spells (Text.join "," (xs.map f)) (separated (xs.map g)) := by
  induction xs with
  | nil => exact fun rest _ => by simp [separated]
  | cons x xs ih =>
      have hx := h x List.mem_cons_self
      have hxs := ih fun y hy => h y (List.mem_cons_of_mem x hy)
      cases xs with
      | nil => simpa [separated] using hx
      | cons y ys => simpa [separated] using hx.append_spells separates_comma hxs

/-- The compact text of a document is cut into its tokens. -/
theorem spells_compact (j : Json) : Spells j.compact j.tokens := by
  induction j using induction with
  | bool b => exact spells_boolText b
  | number n => exact spells_decimal n
  | string s => exact (separates_quote s).spells
  | array items ih =>
      rw [compact, compactItems_eq_map, tokens, itemTokens_eq_map]
      exact (separates_arrayStart.append_spells (spells_join ih)).append_separates
        separates_arrayEnd
  | object fields ih =>
      rw [compact, compactFields_eq_map, tokens, fieldTokens_eq_map]
      refine (separates_objectStart.append_spells (spells_join fun f hf => ?_)).append_separates
        separates_objectEnd
      exact ((separates_quote f.1).append separates_colon).append_spells (ih f hf)

/-- An array or object over several lines is cut into the same tokens as on one. -/
theorem spells_block {α : Type} {f : α → String} {g : α → List Token} {xs : List α}
    {opening closing : String} (ho : Separates opening [t]) (hc : Separates closing us)
    (depth : Nat) (h : ∀ x ∈ xs, Spells (f x) (g x)) :
    Spells (block opening closing depth (xs.map f)) ([t] ++ separated (xs.map g) ++ us) := by
  cases xs with
  | nil => exact (ho.append hc).spells
  | cons x xs =>
      have hparts := spells_join fun y hy =>
        (separates_newline (depth + 1)).append_spells (h y hy)
      have hall := ((ho.append_spells hparts).append_separates
        (separates_newline depth)).append_separates hc
      simpa [block, Function.comp_def] using hall

/-- The indented text of a document is cut into its tokens, at any depth. -/
theorem spells_indented (j : Json) (depth : Nat) : Spells (j.indented depth) j.tokens := by
  induction j using induction generalizing depth with
  | bool b => exact spells_boolText b
  | number n => exact spells_decimal n
  | string s => exact (separates_quote s).spells
  | array items ih =>
      rw [indented, indentedItems_eq_map, tokens, itemTokens_eq_map]
      exact spells_block separates_arrayStart separates_arrayEnd depth
        fun j hj => ih j hj (depth + 1)
  | object fields ih =>
      rw [indented, indentedFields_eq_map, tokens, fieldTokens_eq_map]
      have hcolon : Separates ": " [.colon] := by
        rw [show (": " : String) = ":" ++ " " by decide]
        exact separates_colon.append (separates_spaces nofun (by simp [isSpace]))
      refine spells_block separates_objectStart separates_objectEnd depth fun f hf => ?_
      exact ((separates_quote f.1).append hcolon).append_spells (ih f hf (depth + 1))

/-! ## documents from tokens -/

/-- An array or object that is being read, with what has been read of it, the
last first.  In an object, `name` is that of the field whose value comes
next. -/
inductive Part where
  | items (before : List Json)
  | fields (before : List (String × Json)) (name : String)

mutual
/-- Reads a value inside the given parts, the innermost first, and what follows
it up to the end of the document. -/
def readValue : List Part → List Token → Option Json
  | parts, .bool b :: ts => readAfter parts (.bool b) ts
  | parts, .number n :: ts => readAfter parts (.number n) ts
  | parts, .string s :: ts => readAfter parts (.string s) ts
  | parts, .arrayStart :: ts => readValue (.items [] :: parts) ts
  | .items [] :: parts, .arrayEnd :: ts => readAfter parts (.array []) ts
  | parts, .objectStart :: .objectEnd :: ts => readAfter parts (.object []) ts
  | parts, .objectStart :: .string name :: .colon :: ts =>
    readValue (.fields [] name :: parts) ts
  | _, _ => none

/-- Reads what follows the value `j`, up to the end of the document. -/
def readAfter : List Part → Json → List Token → Option Json
  | [], j, [] => some j
  | .items js :: parts, j, .comma :: ts => readValue (.items (j :: js) :: parts) ts
  | .items js :: parts, j, .arrayEnd :: ts => readAfter parts (.array (j :: js).reverse) ts
  | .fields fs name :: parts, j, .comma :: .string name' :: .colon :: ts =>
    readValue (.fields ((name, j) :: fs) name' :: parts) ts
  | .fields fs name :: parts, j, .objectEnd :: ts =>
    readAfter parts (.object ((name, j) :: fs).reverse) ts
  | _, _, _ => none
end

variable {parts : List Part}

/-- The items that follow the first one of an array. -/
theorem readAfter_items {js : List Json}
    (ih : ∀ j ∈ js, ∀ parts ts, readValue parts (j.tokens ++ ts) = readAfter parts j ts)
    (before : List Json) (j : Json) :
    readAfter (.items before :: parts) j
        ((js.map tokens).flatMap (.comma :: ·) ++ .arrayEnd :: ts) =
      readAfter parts (.array (before.reverse ++ j :: js)) ts := by
  induction js generalizing before j with
  | nil => simp [readAfter]
  | cons k js ih' =>
      simp only [List.map_cons, List.flatMap_cons, List.cons_append, List.append_assoc, readAfter]
      rw [ih k List.mem_cons_self, ih' fun j hj => ih j (List.mem_cons_of_mem k hj)]
      simp

/-- The fields that follow the first one of an object. -/
theorem readAfter_fields {fs : List (String × Json)}
    (ih : ∀ f ∈ fs, ∀ parts ts, readValue parts (f.2.tokens ++ ts) = readAfter parts f.2 ts)
    (before : List (String × Json)) (name : String) (j : Json) :
    readAfter (.fields before name :: parts) j
        ((fs.map fun f => Token.string f.1 :: .colon :: tokens f.2).flatMap (.comma :: ·) ++
          .objectEnd :: ts) =
      readAfter parts (.object (before.reverse ++ (name, j) :: fs)) ts := by
  induction fs generalizing before name j with
  | nil => simp [readAfter]
  | cons f fs ih' =>
      simp only [List.map_cons, List.flatMap_cons, List.cons_append, List.append_assoc, readAfter]
      rw [ih f List.mem_cons_self, ih' fun g hg => ih g (List.mem_cons_of_mem f hg)]
      simp

/-- The tokens of a document are read as the document, inside any parts and
before any tokens. -/
theorem readValue_tokens (j : Json) (parts : List Part) (ts : List Token) :
    readValue parts (j.tokens ++ ts) = readAfter parts j ts := by
  induction j using induction generalizing parts ts with
  | bool b | number n | string s => rfl
  | array items ih =>
      rw [tokens, itemTokens_eq_map]
      cases items with
      | nil => rfl
      | cons j js =>
          simp only [List.map_cons, separated, List.cons_append, List.append_assoc,
            List.nil_append, readValue]
          rw [ih j List.mem_cons_self,
            readAfter_items fun k hk => ih k (List.mem_cons_of_mem j hk)]
          rfl
  | object fields ih =>
      rw [tokens, fieldTokens_eq_map]
      cases fields with
      | nil => rfl
      | cons f fs =>
          simp only [List.map_cons, separated, List.cons_append, List.append_assoc,
            List.nil_append, readValue]
          rw [ih f List.mem_cons_self,
            readAfter_fields fun g hg => ih g (List.mem_cons_of_mem f hg)]
          rfl

/-! ## texts -/

/-- Reads a JSON text. -/
def read? (text : String) : Option Json :=
  (scan text.toList).bind (readValue [])

/-- A text that is cut into the tokens of a document is read as the document. -/
theorem read?_of_spells {j : Json} (h : Spells s j.tokens) : read? s = some j := by
  have hscan : scan s.toList = some (j.tokens ++ []) := by
    have hend := h [] nofun
    rw [List.append_nil] at hend
    rw [hend, scan]
    rfl
  rw [read?, hscan]
  exact readValue_tokens j [] []

/-- **Compact texts** are read back. -/
theorem read?_compact (j : Json) : read? j.compact = some j :=
  read?_of_spells (spells_compact j)

/-- **Indented texts** are read back, also with white space behind them. -/
theorem read?_indented_append (j : Json) (depth : Nat) (h : Separates s []) :
    read? (j.indented depth ++ s) = some j := by
  have hspells := (spells_indented j depth).append_separates h
  rw [List.append_nil] at hspells
  exact read?_of_spells hspells

end Json

end SecdMachine
