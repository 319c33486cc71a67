import SecdMachine.Text.Blank

/-!
# SecdMachine.Text.Words

Cutting text into pieces: at a separator (`splitWhere`), into lines, into the
words between white space, and trimming white space at both ends.  Text is
taken as its list of characters, so that every cut is a structural recursion.

Main statements: splitting loses nothing but the separators
(`flatten_splitWhere`), no piece contains a separator
(`not_mem_splitWhere`), a separator divides the pieces of what is on its two
sides (`splitWhere_append`), a text without separators is one piece
(`splitWhere_eq_singleton`), a word is never empty (`ne_nil_of_mem_words`),
joining unfolds from the left (`concat_cons`, `join_cons_cons`, `unlines_cons`),
and lines with line feeds between them are the text again (`join_lines`).
-/

namespace SecdMachine.Text

/-! ## Splitting at separators -/

/-- The pieces between the characters that satisfy `p`.  There is one piece
more than there are separators, so the empty text is one empty piece. -/
def splitWhere (p : Char → Bool) : List Char → List (List Char)
  | [] => [[]]
  | c :: cs =>
    if p c then
      [] :: splitWhere p cs
    else
      match splitWhere p cs with
      | [] => [[c]]
      | piece :: rest => (c :: piece) :: rest

theorem splitWhere_ne_nil (p : Char → Bool) (cs : List Char) : splitWhere p cs ≠ [] := by
  cases cs with
  | nil => simp [splitWhere]
  | cons c cs =>
    simp only [splitWhere]
    split
    · simp
    · split <;> simp

/-- Splitting drops the separators and nothing else. -/
theorem flatten_splitWhere (p : Char → Bool) (cs : List Char) :
    (splitWhere p cs).flatten = cs.filter (fun c => !p c) := by
  induction cs with
  | nil => rfl
  | cons c cs ih =>
    by_cases h : p c
    · simp [splitWhere, h, ih]
    · simp only [splitWhere, h]
      cases hs : splitWhere p cs with
      | nil => exact absurd hs (splitWhere_ne_nil p cs)
      | cons piece rest => simp_all

/-- No piece contains a separator. -/
theorem not_mem_splitWhere {p : Char → Bool} {cs piece : List Char} {c : Char}
    (hp : piece ∈ splitWhere p cs) (hc : c ∈ piece) : p c = false := by
  have h : c ∈ (splitWhere p cs).flatten := List.mem_flatten.mpr ⟨piece, hp, hc⟩
  rw [flatten_splitWhere] at h
  simpa using (List.mem_filter.mp h).2

/-- A separator between two texts divides the pieces of one from those of the
other. -/
theorem splitWhere_append {p : Char → Bool} {c : Char} (hc : p c = true) (xs ys : List Char) :
    splitWhere p (xs ++ c :: ys) = splitWhere p xs ++ splitWhere p ys := by
  induction xs with
  | nil => simp [splitWhere, hc]
  | cons x xs ih =>
    by_cases hx : p x
    · simp [splitWhere, hx, ih]
    · simp only [List.cons_append, splitWhere, hx, ih]
      cases hs : splitWhere p xs with
      | nil => exact absurd hs (splitWhere_ne_nil p xs)
      | cons piece rest => simp

/-- A text without separators is a single piece. -/
theorem splitWhere_eq_singleton {p : Char → Bool} {cs : List Char} (h : ∀ c ∈ cs, p c = false) :
    splitWhere p cs = [cs] := by
  induction cs with
  | nil => rfl
  | cons c cs ih =>
    have hcs := ih fun d hd => h d (List.mem_cons_of_mem c hd)
    simp [splitWhere, h c List.mem_cons_self, hcs]

/-- The lines of a text, cut at line feeds. -/
def lines (cs : List Char) : List (List Char) :=
  splitWhere (· == '\n') cs

/-! ## Words -/

/-- The maximal runs of characters that are not white space. -/
def words (cs : List Char) : List (List Char) :=
  (splitWhere isBlank cs).filter (!·.isEmpty)

/-- Words are not empty. -/
theorem ne_nil_of_mem_words {cs w : List Char} (h : w ∈ words cs) : w ≠ [] := by
  have := (List.mem_filter.mp h).2
  intro hw
  simp [hw] at this

/-! ## Trimming -/

/-- The text without the white space at its end. -/
def trimEnd (cs : List Char) : List Char :=
  (cs.reverse.dropWhile isBlank).reverse

/-- The text without the white space at both ends. -/
def trim (cs : List Char) : List Char :=
  trimEnd (cs.dropWhile isBlank)

/-- Text without white space has nothing to trim. -/
theorem trim_eq_self {cs : List Char} (h : ∀ c ∈ cs, isBlank c = false) : trim cs = cs := by
  have hfront {ds : List Char} (hds : ∀ c ∈ ds, isBlank c = false) : ds.dropWhile isBlank = ds := by
    cases ds with
    | nil => rfl
    | cons d ds => rw [List.dropWhile_cons_of_neg (by simp [hds d List.mem_cons_self])]
  have hback : ∀ c ∈ cs.reverse, isBlank c = false := fun c hc => h c (List.mem_reverse.mp hc)
  rw [trim, hfront h, trimEnd, hfront hback, List.reverse_reverse]

/-- A string without the white space at both ends. -/
def trimString (s : String) : String :=
  String.ofList (trim s.toList)

/-! ## Joining -/

/-- All pieces one after the other. -/
def concat (ss : List String) : String :=
  ss.foldl (· ++ ·) ""

/-- The pieces one after the other, with `sep` between neighbours. -/
def join (sep : String) : List String → String
  | [] => ""
  | s :: rest => rest.foldl (fun acc t => acc ++ sep ++ t) s

theorem foldl_append (acc : String) (ss : List String) :
    ss.foldl (· ++ ·) acc = acc ++ concat ss := by
  induction ss generalizing acc with
  | nil => simp [concat]
  | cons s ss ih => rw [concat, List.foldl_cons, List.foldl_cons, ih, ih, String.append_assoc]; simp

@[simp] theorem concat_nil : concat [] = "" := rfl

@[simp] theorem concat_cons (s : String) (ss : List String) :
    concat (s :: ss) = s ++ concat ss := by
  rw [concat, List.foldl_cons, foldl_append]; simp

/-- The characters of texts put together are those of the texts, in order. -/
theorem toList_concat (ss : List String) : (concat ss).toList = ss.flatMap String.toList := by
  induction ss with
  | nil => rfl
  | cons s ss ih => simp [ih]

@[simp] theorem join_nil (sep : String) : join sep [] = "" := rfl

@[simp] theorem join_singleton (sep s : String) : join sep [s] = s := rfl

@[simp] theorem join_cons_cons (sep s t : String) (rest : List String) :
    join sep (s :: t :: rest) = s ++ sep ++ join sep (t :: rest) := by
  simp only [join, List.foldl_cons]
  induction rest generalizing t with
  | nil => rfl
  | cons u rest ih =>
    simp only [List.foldl_cons]
    rw [← ih, String.append_assoc, String.append_assoc, String.append_assoc]
    simp [String.append_assoc]

/-- Lines with line feeds between them are the text that they were cut from. -/
theorem join_lines (cs : List Char) :
    join "\n" ((lines cs).map String.ofList) = String.ofList cs := by
  rw [lines]
  induction cs with
  | nil => rfl
  | cons c cs ih =>
    cases hs : splitWhere (· == '\n') cs with
    | nil => exact absurd hs (splitWhere_ne_nil _ cs)
    | cons piece rest =>
      rw [hs] at ih
      by_cases hc : c = '\n'
      · simp_all [splitWhere, String.ofList_cons]
      · cases rest <;> simp_all [splitWhere, String.ofList_cons, String.append_assoc]

/-- Each piece followed by a line feed. -/
def unlines (ss : List String) : String :=
  concat (ss.map (· ++ "\n"))

theorem unlines_nil : unlines [] = "" := rfl

theorem unlines_cons (s : String) (ss : List String) :
    unlines (s :: ss) = s ++ "\n" ++ unlines ss := by
  rw [unlines, unlines, List.map_cons, concat_cons]

theorem unlines_append (ss ts : List String) : unlines (ss ++ ts) = unlines ss ++ unlines ts := by
  induction ss with
  | nil => rw [List.nil_append, unlines_nil, String.empty_append]
  | cons s ss ih => simp only [List.cons_append, unlines_cons, ih, String.append_assoc]

/-- The text with spaces in front, to at least `width` characters. -/
def padLeft (width : Nat) (s : String) : String :=
  String.ofList (List.replicate (width - s.length) ' ') ++ s

end SecdMachine.Text
