import Mathlib.Data.List.TakeWhile
import SecdMachine.Proofs.Rejoining

/-!
# SecdMachine.Proofs.Comments

Which parts of a text are comments.

A line takes part in a text through its pieces only: two texts that differ in one
line are read alike exactly if these two lines have the same pieces
(`read_replaceLine_iff`).  So all there is to say about comments is said about the
pieces of one line.

1. From its first `##` on, a line has none (`pieces_front`).
2. A line that starts with `#`, apart from white space, is no comment as a whole.
   Only its first part is, up to a semicolon; the pieces behind the semicolon are
   pieces of the line all the same (`pieces_of_hash`).
-/

namespace SecdMachine

namespace Text

variable {p : Char → Bool} {cs ds : List Char} {c : Char}

/-- What comes behind the first separator. -/
def afterFirst (p : Char → Bool) (cs : List Char) : List Char :=
  (cs.dropWhile (!p ·)).tail

theorem afterFirst_isSuffix (p : Char → Bool) (cs : List Char) : afterFirst p cs <:+ cs :=
  (List.tail_suffix _).trans (List.dropWhile_suffix _)

theorem afterFirst_eq_nil (h : ∀ c ∈ cs, p c = false) : afterFirst p cs = [] := by
  have hall : cs.dropWhile (!p ·) = [] := List.dropWhile_eq_nil_iff.mpr (by simpa using h)
  rw [afterFirst, hall, List.tail_nil]

/-- A text is split into what is in front of the first separator and the pieces
behind it. -/
theorem exists_splitWhere_eq (p : Char → Bool) (cs : List Char) :
    ∃ piece, piece <+: cs ∧
      (splitWhere p cs = piece :: splitWhere p (afterFirst p cs) ∨
        splitWhere p cs = [piece] ∧ afterFirst p cs = []) := by
  refine ⟨cs.takeWhile (!p ·), List.takeWhile_prefix _, ?_⟩
  have hpiece : ∀ c ∈ cs.takeWhile (!p ·), p c = false := fun c hc => by
    simpa using List.mem_takeWhile_imp hc
  have hcut := List.takeWhile_append_dropWhile (p := (!p ·)) (l := cs)
  cases hrest : cs.dropWhile (!p ·) with
  | nil =>
      right
      rw [hrest, List.append_nil] at hcut
      rw [hcut] at hpiece ⊢
      exact ⟨splitWhere_eq_singleton hpiece, afterFirst_eq_nil hpiece⟩
  | cons c rest =>
      left
      have hc : p c = true := by
        have := List.head?_dropWhile_not (!p ·) cs
        simpa [hrest] using this
      rw [afterFirst, hrest, List.tail_cons]
      rw [hrest] at hcut
      rw [← hcut, splitWhere_append hc, hcut, splitWhere_eq_singleton hpiece,
        List.singleton_append]

/-- The first character that is not white space is the same in a longer text. -/
theorem head?_dropWhile_of_isPrefix (h : cs <+: ds) (hc : (cs.dropWhile isBlank).head? = some c) :
    (ds.dropWhile isBlank).head? = some c := by
  obtain ⟨rest, rfl⟩ := h
  have hne : (cs.dropWhile isBlank).isEmpty = false := by
    cases hcs : cs.dropWhile isBlank with
    | nil => simp [hcs] at hc
    | cons => rfl
  rw [List.dropWhile_append, hne]
  simp [List.head?_append, hc]

end Text

namespace Statement

variable {source text : String} {cs front rest line new : List Char} {i : Nat}

/-! ## the pieces of a line -/

/-- A line without a comment ends where it ends. -/
theorem beforeComment_of_not_isInfix (h : ¬ ['#', '#'] <:+: cs) : beforeComment cs = cs := by
  have hend : ([] : List Char).head? ≠ some '#' := nofun
  simpa [beforeComment] using beforeComment_append h hend

/-- The comment of a line begins at the first `##`. -/
theorem beforeComment_front (h : ¬ ['#', '#'] <:+: front ++ ['#']) :
    beforeComment (front ++ '#' :: '#' :: rest) = front := by
  induction front with
  | nil => rfl
  | cons c front ih =>
      have hlater : ¬ ['#', '#'] <:+: front ++ ['#'] := fun hin => h (List.infix_cons hin)
      rw [List.cons_append, beforeComment, ih hlater]
      rintro rest' rfl hnext
      cases front with
      | nil => exact h List.infix_rfl
      | cons d front =>
          obtain ⟨rfl, _⟩ := List.cons.inj hnext
          exact h ⟨[], front ++ ['#'], rfl⟩

/-- **Comments behind `##`**: the pieces of a line are those of its front. -/
theorem pieces_front (h : ¬ ['#', '#'] <:+: front ++ ['#']) :
    pieces front = pieces (front ++ '#' :: '#' :: rest) := by
  have hfront : ¬ ['#', '#'] <:+: front := fun hin =>
    h (hin.trans (List.prefix_append front ['#']).isInfix)
  rw [pieces, pieces, beforeComment_front h, beforeComment_of_not_isInfix hfront]

/-- A part that starts with `#` is dropped. -/
theorem isContent_trim_of_hash (h : ∀ c ∈ (cs.dropWhile Text.isBlank).head?, c = '#') :
    isContent (Text.trim cs) = false := by
  obtain ⟨rest, hrest⟩ := Text.trimEnd_isPrefix (cs.dropWhile Text.isBlank)
  rw [Text.trim]
  cases htrim : Text.trimEnd (cs.dropWhile Text.isBlank) with
  | nil => rfl
  | cons c piece =>
      have hc : c = '#' := h c <| by
        rw [← hrest, htrim]
        rfl
      simp [isContent, hc]

/-- The statements of a line that come behind its first semicolon. -/
def laterPieces (line : List Char) : List (List Char) :=
  pieces (Text.afterFirst (· == ';') (beforeComment line))

/-- **Lines that start with `#`**: only what is behind the first semicolon counts. -/
theorem pieces_of_hash (h : (line.dropWhile Text.isBlank).head? = some '#') :
    pieces line = laterPieces line := by
  have hcomment := not_isInfix_beforeComment line
  have hlater : beforeComment (Text.afterFirst (· == ';') (beforeComment line)) =
      Text.afterFirst (· == ';') (beforeComment line) :=
    beforeComment_of_not_isInfix fun hin =>
      hcomment (hin.trans (Text.afterFirst_isSuffix _ _).isInfix)
  obtain ⟨piece, hpiece, hsplit⟩ := Text.exists_splitWhere_eq (· == ';') (beforeComment line)
  have hdropped : isContent (Text.trim piece) = false := by
    refine isContent_trim_of_hash fun c hc => ?_
    have := Text.head?_dropWhile_of_isPrefix (hpiece.trans (beforeComment_isPrefix line)) hc
    rw [h] at this
    exact (Option.some.inj this).symm
  rw [laterPieces, pieces, pieces, hlater]
  obtain hsplit | ⟨hsplit, hnone⟩ := hsplit
  · rw [hsplit, List.map_cons, List.filter_cons_of_neg (by simp [hdropped])]
  · rw [hsplit, hnone, List.map_singleton, List.filter_singleton, hdropped]
    rfl

theorem laterPieces_eq_nil (h : ';' ∉ beforeComment line) : laterPieces line = [] := by
  have hnone : Text.afterFirst (· == ';') (beforeComment line) = [] :=
    Text.afterFirst_eq_nil fun c hc => beq_eq_false_iff_ne.mpr fun he => h (he ▸ hc)
  rw [laterPieces, hnone]
  rfl

/-! ## one line of a text -/

/-- The statements that stand on line `n`. -/
def onLine (n : Nat) (ss : List Statement) : List Statement :=
  ss.filter (·.line = n)

/-- The statements on a line are the pieces of this line. -/
theorem onLine_ofLines {lines : List (List Char)} (source : String) (n : Nat)
    (h : lines[i]? = some line) :
    onLine (n + i) (ofLines source n lines) = (pieces line).map (ofChars source (n + i)) := by
  induction lines generalizing n i with
  | nil => simp at h
  | cons first lines ih =>
      rw [ofLines, onLine, List.filter_append]
      cases i with
      | zero =>
          obtain rfl : first = line := by simpa using h
          have hlater : (ofLines source (n + 1) lines).filter (·.line = n + 0) = [] :=
            List.filter_eq_nil_iff.mpr fun s hs => by
              have := line_of_mem_ofLines hs
              simp
              omega
          have hhere : ((pieces first).map (ofChars source n)).filter (·.line = n + 0) =
              (pieces first).map (ofChars source n) :=
            List.filter_eq_self.mpr <| by simp [ofChars]
          rw [hhere, hlater, List.append_nil, Nat.add_zero]
      | succ i =>
          have hhere : ((pieces first).map (ofChars source n)).filter (·.line = n + (i + 1)) = [] :=
            List.filter_eq_nil_iff.mpr <| by simp [ofChars]
          have hlater := ih (n + 1) (i := i) (by simpa using h)
          rw [Nat.add_assoc, Nat.add_comm 1 i] at hlater
          rw [hhere, List.nil_append, ← hlater, onLine]

theorem onLine_read (source : String) (h : (Text.lines text.toList)[i]? = some line) :
    onLine (i + 1) (read source text) = (pieces line).map (ofChars source (i + 1)) := by
  rw [Nat.add_comm]
  exact onLine_ofLines source 1 h

/-- The reports of illegal characters on a line are those of its statements. -/
theorem illegalReports_onLine (n : Nat) (ss : List Statement) :
    (Assembly.illegalReports ss).filter (fun r => r.statement.any (·.line = n)) =
      Assembly.illegalReports (onLine n ss) := by
  rw [Assembly.illegalReports, Assembly.illegalReports, onLine, List.filter_filterMap,
    List.filterMap_filter]
  refine List.filterMap_congr fun s _ => ?_
  cases hc : illegalChar? s.text.toList <;>
    by_cases hn : s.line = n <;> simp [Assembly.illegalReport?, Assembly.reportAt, hc, hn]

/-! ## replacing a line -/

/-- The text with another line in the place of line `i`, the first being line 0. -/
def replaceLine (i : Nat) (new : List Char) (text : String) : String :=
  Text.join "\n" (((Text.lines text.toList).set i new).map String.ofList)

theorem lines_replaceLine (i : Nat) (hnew : '\n' ∉ new) (text : String) :
    Text.lines (replaceLine i new text).toList = (Text.lines text.toList).set i new := by
  have hne : ((Text.lines text.toList).set i new).map String.ofList ≠ [] := by
    simpa [Text.lines] using Text.splitWhere_ne_nil (· == '\n') text.toList
  rw [Text.lines, replaceLine, Text.splitWhere_join rfl (by decide) hne, List.map_map]
  · simp [Function.comp_def]
  · intro t ht c hc
    obtain ⟨cs, hcs, rfl⟩ := List.mem_map.mp ht
    rw [String.toList_ofList] at hc
    cases List.mem_or_eq_of_mem_set hcs with
    | inl hold => exact Text.not_mem_splitWhere (p := (· == '\n')) hold hc
    | inr hhere => exact beq_eq_false_iff_ne.mpr fun he => hnew (hhere ▸ he ▸ hc)

theorem ofLines_set {lines : List (List Char)} (source : String) (n : Nat)
    (h : lines[i]? = some line) (hpieces : pieces new = pieces line) :
    ofLines source n (lines.set i new) = ofLines source n lines := by
  induction lines generalizing n i with
  | nil => rfl
  | cons first lines ih =>
      cases i with
      | zero =>
          obtain rfl : first = line := by simpa using h
          rw [List.set_cons_zero, ofLines, ofLines, hpieces]
      | succ i => rw [List.set_cons_succ, ofLines, ofLines, ih (n + 1) (by simpa using h)]

/-- **Replacing a line**: a text is read as before exactly if the new line has the
pieces of the old one. -/
theorem read_replaceLine_iff (source : String) (h : (Text.lines text.toList)[i]? = some line)
    (hnew : '\n' ∉ new) :
    read source (replaceLine i new text) = read source text ↔ pieces new = pieces line := by
  have hlines := lines_replaceLine i hnew text
  constructor
  · intro hread
    obtain ⟨hi, _⟩ := List.getElem?_eq_some_iff.mp h
    have hthere : (Text.lines (replaceLine i new text).toList)[i]? = some new := by
      rw [hlines, List.getElem?_set_self hi]
    have htexts := congrArg (List.map Statement.text) (congrArg (onLine (i + 1)) hread)
    rw [onLine_read source hthere, onLine_read source h, List.map_map, List.map_map] at htexts
    exact List.map_injective_iff.mpr (fun _ _ => String.ofList_injective) htexts
  · intro hpieces
    rw [read, hlines, ofLines_set source 1 h hpieces, ← read]

/-! ## comments -/

/-- **Comments**.  The part of a line from its first `##` on may be replaced by
nothing: the text has the same statements and the same reports of illegal characters.

Of a line that starts with `#`, apart from white space, the statements behind the first
semicolon count, and no others: these are what it has, its reports are theirs, and the
line may be replaced by nothing exactly if there are none.  In particular a line with no
semicolon in front of its first `##` has neither statements nor reports. -/
theorem comments_delimited (source : String) (hline : (Text.lines text.toList)[i]? = some line) :
    (∀ front rest, line = front ++ '#' :: '#' :: rest → ¬ ['#', '#'] <:+: front ++ ['#'] →
      read source (replaceLine i front text) = read source text ∧
      Assembly.illegalReports (read source (replaceLine i front text)) =
        Assembly.illegalReports (read source text)) ∧
    ((line.dropWhile Text.isBlank).head? = some '#' →
      onLine (i + 1) (read source text) = (laterPieces line).map (ofChars source (i + 1)) ∧
      (Assembly.illegalReports (read source text)).filter
          (fun r => r.statement.any (·.line = i + 1)) =
        Assembly.illegalReports ((laterPieces line).map (ofChars source (i + 1))) ∧
      (read source (replaceLine i [] text) = read source text ↔ laterPieces line = []) ∧
      (';' ∉ beforeComment line → laterPieces line = [])) := by
  have hnewline : '\n' ∉ line := fun hmem => by
    simpa using Text.not_mem_splitWhere (List.mem_of_getElem? hline) hmem
  constructor
  · rintro front rest rfl hfirst
    have hfront : '\n' ∉ front := fun hmem => hnewline (List.mem_append_left _ hmem)
    have hread := (read_replaceLine_iff source hline hfront).mpr (pieces_front hfirst)
    rw [hread]
    exact ⟨rfl, rfl⟩
  · intro hhash
    have hhere := onLine_read source hline
    rw [pieces_of_hash hhash] at hhere
    refine ⟨hhere, ?_, ?_, laterPieces_eq_nil⟩
    · rw [illegalReports_onLine, hhere]
    · rw [read_replaceLine_iff source hline List.not_mem_nil, pieces_of_hash hhash, eq_comm]
      rfl

/-- Two lines, each with a comment behind an operation; the second one starts with a
comment, too, which ends at its semicolon. -/
theorem comments_delimited_twoLines :
    read "test" (replaceLine 0 "main: ; halt ".toList
        "main: ; halt ## end # ; add\n\t# a ; add ## b") =
      read "test" "main: ; halt ## end # ; add\n\t# a ; add ## b" ∧
    onLine 2 (read "test" "main: ; halt ## end # ; add\n\t# a ; add ## b") =
      [⟨.operation, "add", 2, "test"⟩] := by
  have hfirst : (Text.lines "main: ; halt ## end # ; add\n\t# a ; add ## b".toList)[0]? =
      some "main: ; halt ## end # ; add".toList := by
    decide +kernel
  have hsecond : (Text.lines "main: ; halt ## end # ; add\n\t# a ; add ## b".toList)[1]? =
      some "\t# a ; add ## b".toList := by
    decide +kernel
  obtain ⟨hfront, _⟩ := comments_delimited "test" hfirst
  obtain ⟨_, hhash⟩ := comments_delimited "test" hsecond
  refine ⟨(hfront "main: ; halt ".toList " end # ; add".toList ?_ ?_).1, (hhash ?_).1.trans ?_⟩ <;>
    decide +kernel

/-- A semicolon ends the comment of a line: here `halt` is a statement, and it is none
if the line is replaced by nothing. -/
theorem comment_ended_by_semicolon :
    ("# a; halt".toList.dropWhile Text.isBlank).head? = some '#' ∧
    (Text.lines "# a; halt\n".toList)[0]? = some "# a; halt".toList ∧
    read "test" "# a; halt\n" = [⟨.operation, "halt", 1, "test"⟩] ∧
    read "test" (replaceLine 0 [] "# a; halt\n") = [] := by
  decide +kernel

end Statement

end SecdMachine
