import Mathlib.Data.List.Infix
import SecdMachine.Proofs.Insertion

/-!
# SecdMachine.Proofs.Rejoining

Texts are read line by line, and what was read is read again as it is.

Two texts with a line feed between them are read one after the other; only the
lines of the second move down (`read_append_newline`).

`Statement.IsPiece` says what the text of a statement looks like: it is not empty,
has no white space around it, does not start with `#`, and holds neither a separator
nor the beginning of a comment (`isPiece_of_mem_pieces`).  Cutting a line, splitting
it and trimming leave such a text as it is (`pieces_eq_singleton`), and behind a
separator the next one starts afresh, since a separator is no part of a `##`
(`beforeComment_append`).  So the texts of statements, joined with line feeds or
with semicolons, are the pieces that the result is cut into (`pieces_rejoin`).

The kind of a statement depends on its text only, and a program on the kinds and
texts of its statements but not on their lines (`Assembles.of_texts`).
-/

namespace SecdMachine

/-! ## splitting, trimming and joining -/

namespace Text

variable {p : Char → Bool} {cs piece : List Char} {c : Char}

/-- A text is split into one part more than it has separators. -/
theorem length_splitWhere (p : Char → Bool) (cs : List Char) :
    (splitWhere p cs).length = cs.countP p + 1 := by
  induction cs with
  | nil => rfl
  | cons c cs ih =>
      by_cases hc : p c
      · simp [splitWhere, hc, ih]
      · cases hs : splitWhere p cs with
        | nil => exact absurd hs (splitWhere_ne_nil p cs)
        | cons piece rest =>
            rw [hs] at ih
            simpa [splitWhere, hc, hs] using ih

theorem length_lines (cs : List Char) : (lines cs).length = cs.count '\n' + 1 :=
  length_splitWhere _ cs

/-- The first piece is where the text begins. -/
theorem exists_splitWhere_eq_cons (p : Char → Bool) (cs : List Char) :
    ∃ piece rest, splitWhere p cs = piece :: rest ∧ piece <+: cs := by
  induction cs with
  | nil => exact ⟨[], [], rfl, List.nil_prefix⟩
  | cons c cs ih =>
      by_cases hc : p c
      · exact ⟨[], splitWhere p cs, by simp [splitWhere, hc], List.nil_prefix⟩
      · obtain ⟨piece, rest, hs, hpiece⟩ := ih
        exact ⟨c :: piece, rest, by simp [splitWhere, hc, hs],
          List.cons_prefix_cons.mpr ⟨rfl, hpiece⟩⟩

/-- A piece stands in the text as it is. -/
theorem isInfix_of_mem_splitWhere (h : piece ∈ splitWhere p cs) : piece <:+: cs := by
  induction cs generalizing piece with
  | nil =>
      obtain rfl : piece = [] := by simpa [splitWhere] using h
      exact List.nil_infix
  | cons c cs ih =>
      by_cases hc : p c
      · simp only [splitWhere, hc, if_true] at h
        cases List.mem_cons.mp h with
        | inl hnil => exact hnil ▸ List.nil_infix
        | inr hrest => exact List.infix_cons (ih hrest)
      · obtain ⟨first, rest, hs, hfirst⟩ := exists_splitWhere_eq_cons p cs
        simp only [splitWhere, hc, hs] at h
        cases List.mem_cons.mp h with
        | inl hhere => exact hhere ▸ (List.cons_prefix_cons.mpr ⟨rfl, hfirst⟩).isInfix
        | inr hrest =>
            refine List.infix_cons (ih ?_)
            rw [hs]
            exact List.mem_cons_of_mem first hrest

/-- What is left after leading white space does not begin with it. -/
theorem isBlank_of_head?_dropWhile (h : (cs.dropWhile isBlank).head? = some c) :
    isBlank c = false := by
  simpa [h] using List.head?_dropWhile_not isBlank cs

theorem trimEnd_isPrefix (cs : List Char) : trimEnd cs <+: cs := by
  rw [trimEnd, ← List.reverse_suffix, List.reverse_reverse]
  exact List.dropWhile_suffix isBlank

theorem trim_isInfix (cs : List Char) : trim cs <:+: cs :=
  (trimEnd_isPrefix _).isInfix.trans (List.dropWhile_suffix isBlank).isInfix

/-- White space is trimmed in front. -/
theorem isBlank_of_head?_trim (h : (trim cs).head? = some c) : isBlank c = false := by
  obtain ⟨rest, hrest⟩ := trimEnd_isPrefix (cs.dropWhile isBlank)
  have hfirst : (cs.dropWhile isBlank).head? = some c := by
    rw [trim] at h
    rw [← hrest, List.head?_append, h]
    rfl
  exact isBlank_of_head?_dropWhile hfirst

/-- White space is trimmed at the end. -/
theorem isBlank_of_getLast?_trim (h : (trim cs).getLast? = some c) : isBlank c = false := by
  rw [trim, trimEnd, List.getLast?_reverse] at h
  exact isBlank_of_head?_dropWhile h

theorem dropWhile_eq_self_of_head? (h : ∀ c ∈ cs.head?, isBlank c = false) :
    cs.dropWhile isBlank = cs := by
  cases cs with
  | nil => rfl
  | cons c cs => rw [List.dropWhile_cons_of_neg (by simp [h c rfl])]

/-- Text with no white space at its ends has nothing to trim. -/
theorem trim_eq_self_of_ends (hfirst : ∀ c ∈ cs.head?, isBlank c = false)
    (hlast : ∀ c ∈ cs.getLast?, isBlank c = false) : trim cs = cs := by
  rw [← List.head?_reverse] at hlast
  rw [trim, dropWhile_eq_self_of_head? hfirst, trimEnd, dropWhile_eq_self_of_head? hlast,
    List.reverse_reverse]

/-- Texts without separators are what their join is split into. -/
theorem splitWhere_join {sep : String} {ts : List String} (hsep : sep.toList = [c])
    (hc : p c = true) (hne : ts ≠ []) (h : ∀ t ∈ ts, ∀ d ∈ t.toList, p d = false) :
    splitWhere p (join sep ts).toList = ts.map String.toList := by
  induction ts with
  | nil => exact absurd rfl hne
  | cons t ts ih =>
      rw [List.forall_mem_cons] at h
      cases ts with
      | nil => simpa using splitWhere_eq_singleton h.1
      | cons u ts =>
          have hcut : (join sep (t :: u :: ts)).toList =
              t.toList ++ c :: (join sep (u :: ts)).toList := by
            simp [hsep]
          rw [hcut, splitWhere_append hc, splitWhere_eq_singleton h.1,
            ih (List.cons_ne_nil u ts) h.2]
          rfl

/-- A character of joined texts is one of the separator or of a text. -/
theorem mem_toList_join {sep : String} {ts : List String} (h : c ∈ (join sep ts).toList) :
    c ∈ sep.toList ∨ ∃ t ∈ ts, c ∈ t.toList := by
  induction ts with
  | nil => simp at h
  | cons t ts ih =>
      cases ts with
      | nil => exact .inr ⟨t, List.mem_singleton_self t, by simpa using h⟩
      | cons u ts =>
          rw [join_cons_cons, String.toList_append, String.toList_append, List.mem_append,
            List.mem_append] at h
          obtain (ht | hsep) | hrest := h
          · exact .inr ⟨t, List.mem_cons_self, ht⟩
          · exact .inl hsep
          · exact (ih hrest).imp_right fun ⟨v, hv, hc⟩ => ⟨v, List.mem_cons_of_mem t hv, hc⟩

end Text

namespace Statement

variable {cs piece line : List Char} {source : String}

/-! ## comments -/

theorem beforeComment_isPrefix (cs : List Char) : beforeComment cs <+: cs := by
  fun_induction beforeComment cs with
  | case1 => exact List.nil_prefix
  | case2 c cs _ ih => exact List.cons_prefix_cons.mpr ⟨rfl, ih⟩
  | case3 => exact List.nil_prefix

/-- No comment begins in front of the comment. -/
theorem not_isInfix_beforeComment (cs : List Char) : ¬ ['#', '#'] <:+: beforeComment cs := by
  fun_induction beforeComment cs with
  | case1 => simp
  | case2 c cs hne ih =>
      intro h
      cases List.infix_cons_iff.mp h with
      | inl hhere =>
          obtain ⟨rfl, hnext⟩ := List.cons_prefix_cons.mp hhere
          obtain ⟨rest, hrest⟩ := hnext.trans (beforeComment_isPrefix cs)
          exact hne rest rfl hrest.symm
      | inr hlater => exact ih hlater
  | case3 => simp

/-- A comment behind a text without one begins behind it, unless a `#` comes next
that could belong to both. -/
theorem beforeComment_append {cs ds : List Char} (hcs : ¬ ['#', '#'] <:+: cs)
    (hds : ds.head? ≠ some '#') : beforeComment (cs ++ ds) = cs ++ beforeComment ds := by
  induction cs with
  | nil => rfl
  | cons c cs ih =>
      have hlater : ¬ ['#', '#'] <:+: cs := fun h => hcs (List.infix_cons h)
      rw [List.cons_append, beforeComment, ih hlater, List.cons_append]
      rintro rest rfl hnext
      cases cs with
      | nil =>
          rw [List.nil_append] at hnext
          exact hds (by rw [hnext]; rfl)
      | cons d cs =>
          obtain ⟨rfl, _⟩ := List.cons.inj hnext
          exact hcs ⟨[], cs, rfl⟩

/-! ## the texts of statements -/

/-- The text of a statement: what is left of a line between separators and in
front of a comment, without the white space around it. -/
structure IsPiece (cs : List Char) : Prop where
  ne_nil : cs ≠ []
  first : ∀ c ∈ cs.head?, Text.isBlank c = false ∧ c ≠ '#'
  last : ∀ c ∈ cs.getLast?, Text.isBlank c = false
  newline : '\n' ∉ cs
  semicolon : ';' ∉ cs
  comment : ¬ ['#', '#'] <:+: cs

/-- What a line is cut into are pieces. -/
theorem isPiece_of_mem_pieces (hline : '\n' ∉ line) (h : piece ∈ pieces line) : IsPiece piece := by
  obtain ⟨hne, hhash⟩ := mem_pieces h
  obtain ⟨part, hpart, rfl⟩ := List.mem_map.mp (List.mem_filter.mp h).1
  have hstands : Text.trim part <:+: beforeComment line :=
    (Text.trim_isInfix part).trans (Text.isInfix_of_mem_splitWhere hpart)
  exact {
    ne_nil := hne
    first := fun c hc =>
      ⟨Text.isBlank_of_head?_trim hc, fun he => hhash (by rw [← he]; exact hc)⟩
    last := fun c hc => Text.isBlank_of_getLast?_trim hc
    newline := fun hmem =>
      hline ((beforeComment_isPrefix line).subset (hstands.subset hmem))
    semicolon := fun hmem => by
      have := Text.not_mem_splitWhere hpart ((Text.trim_isInfix part).subset hmem)
      simp at this
    comment := fun hcomment => not_isInfix_beforeComment line (hcomment.trans hstands) }

/-- A piece has no white space around it. -/
theorem IsPiece.trim (h : IsPiece cs) : Text.trim cs = cs :=
  Text.trim_eq_self_of_ends (fun c hc => (h.first c hc).1) h.last

theorem IsPiece.isContent (h : IsPiece cs) : isContent cs = true := by
  cases cs with
  | nil => exact absurd rfl h.ne_nil
  | cons c cs => simpa [Statement.isContent] using (h.first c rfl).2

/-- Semicolons between the texts of statements begin no comment. -/
theorem beforeComment_join {ts : List String} (h : ∀ t ∈ ts, IsPiece t.toList) :
    beforeComment (Text.join ";" ts).toList = (Text.join ";" ts).toList := by
  induction ts with
  | nil => rfl
  | cons t ts ih =>
      rw [List.forall_mem_cons] at h
      cases ts with
      | nil =>
          have hend : ([] : List Char).head? ≠ some '#' := nofun
          simpa [beforeComment] using beforeComment_append h.1.comment hend
      | cons u ts =>
          have hcut : (Text.join ";" (t :: u :: ts)).toList =
              t.toList ++ ';' :: (Text.join ";" (u :: ts)).toList := by
            simp
          rw [hcut, beforeComment_append h.1.comment (by simp), beforeComment, ih h.2]
          simp

/-- A line of statements is cut into their texts. -/
theorem pieces_join {ts : List String} (h : ∀ t ∈ ts, IsPiece t.toList) :
    pieces (Text.join ";" ts).toList = ts.map String.toList := by
  by_cases hne : ts = []
  · rw [hne]
    rfl
  · have hsplit : Text.splitWhere (· == ';') (Text.join ";" ts).toList = ts.map String.toList :=
      Text.splitWhere_join rfl rfl hne fun t ht c hc =>
        beq_eq_false_iff_ne.mpr fun he => (h t ht).semicolon (he ▸ hc)
    have htrim : (ts.map String.toList).map Text.trim = ts.map String.toList := by
      rw [List.map_map]
      exact List.map_congr_left fun t ht => (h t ht).trim
    rw [pieces, beforeComment_join h, hsplit, htrim, List.filter_eq_self]
    intro cs hcs
    obtain ⟨t, ht, rfl⟩ := List.mem_map.mp hcs
    exact (h t ht).isContent

/-- A line that is a piece has no other. -/
theorem pieces_eq_singleton {t : String} (h : IsPiece t.toList) : pieces t.toList = [t.toList] := by
  have hone : ∀ u ∈ [t], IsPiece u.toList := by simpa using h
  simpa using pieces_join hone

/-- **Pieces**: joined with line feeds, or with semicolons, the texts of statements
are the pieces of the lines of what they are joined to. -/
theorem pieces_rejoin {sep : String} {ts : List String} (hsep : sep = "\n" ∨ sep = ";")
    (h : ∀ t ∈ ts, IsPiece t.toList) :
    (Text.lines (Text.join sep ts).toList).flatMap pieces = ts.map String.toList := by
  obtain rfl | rfl := hsep
  · by_cases hne : ts = []
    · rw [hne]
      rfl
    · have hlines : Text.lines (Text.join "\n" ts).toList = ts.map String.toList :=
        Text.splitWhere_join rfl rfl hne fun t ht c hc =>
          beq_eq_false_iff_ne.mpr fun he => (h t ht).newline (he ▸ hc)
      rw [hlines, List.flatMap_map, List.map_eq_flatMap]
      exact List.flatMap_congr fun t ht => pieces_eq_singleton (h t ht)
  · have hline : Text.lines (Text.join ";" ts).toList = [(Text.join ";" ts).toList] := by
      refine Text.splitWhere_eq_singleton fun c hc => ?_
      rw [beq_eq_false_iff_ne]
      rintro rfl
      obtain hsemicolon | ⟨t, ht, hmem⟩ := Text.mem_toList_join hc
      · simp at hsemicolon
      · exact (h t ht).newline hmem
    rw [hline, List.flatMap_singleton, pieces_join h]

/-! ## lines -/

/-- A statement of `k` lines further down. -/
def moveDown (k : Nat) (s : Statement) : Statement :=
  { s with line := s.line + k }

/-- The statements of lines further down are those of the lines, moved down. -/
theorem ofLines_add (source : String) (n k : Nat) (lines : List (List Char)) :
    ofLines source (n + k) lines = (ofLines source n lines).map (moveDown k) := by
  induction lines generalizing n with
  | nil => rfl
  | cons line lines ih =>
      have hpieces : (pieces line).map (ofChars source (n + k)) =
          ((pieces line).map (ofChars source n)).map (moveDown k) := by
        rw [List.map_map]
        rfl
      rw [ofLines, ofLines, List.map_append, ← ih, hpieces, Nat.add_right_comm]

/-- **Composition**: a text behind a line feed is read as it is alone, further
down. -/
theorem read_append_newline (source a b : String) :
    read source (a ++ "\n" ++ b) =
      read source a ++ (read source b).map (moveDown (a.toList.count '\n' + 1)) := by
  rw [read_append, Text.length_lines, ofLines_add, ← read]

/-- The statements of lines stand on these lines. -/
theorem line_of_mem_ofLines {n : Nat} {lines : List (List Char)} {s : Statement}
    (h : s ∈ ofLines source n lines) : n ≤ s.line ∧ s.line < n + lines.length := by
  induction lines generalizing n with
  | nil => cases h
  | cons line lines ih =>
      rw [ofLines] at h
      rw [List.length_cons]
      cases List.mem_append.mp h with
      | inl hhere =>
          obtain ⟨cs, _, rfl⟩ := List.mem_map.mp hhere
          simp [ofChars]
      | inr hlater =>
          have := ih hlater
          omega

/-- Statements come in the order of their lines. -/
theorem pairwise_ofLines (source : String) (n : Nat) (lines : List (List Char)) :
    (ofLines source n lines).Pairwise (·.line ≤ ·.line) := by
  induction lines generalizing n with
  | nil => exact .nil
  | cons line lines ih =>
      rw [ofLines, List.pairwise_append]
      refine ⟨?_, ih (n + 1), ?_⟩
      · rw [List.pairwise_map]
        exact List.pairwise_of_forall fun _ _ => Nat.le_refl n
      · intro s hs t ht
        obtain ⟨cs, _, rfl⟩ := List.mem_map.mp hs
        exact Nat.le_of_succ_le (line_of_mem_ofLines ht).1

/-! ## kinds and texts -/

/-- What a statement says, wherever it stands. -/
def content (s : Statement) : Kind × String :=
  (s.kind, s.text)

/-- What the statements of a text are depends on its pieces only. -/
theorem map_content_ofLines (source : String) (n : Nat) (lines : List (List Char)) :
    (ofLines source n lines).map content =
      (lines.flatMap pieces).map fun cs => (kindOf cs, String.ofList cs) := by
  induction lines generalizing n with
  | nil => rfl
  | cons line lines ih =>
      rw [ofLines, List.map_append, ih, List.flatMap_cons, List.map_append, List.map_map]
      rfl

/-- The text of a statement is a piece. -/
theorem isPiece_of_mem_read {text : String} {s : Statement} (h : s ∈ read source text) :
    IsPiece s.text.toList := by
  have hmem : s.content ∈ (read source text).map content := List.mem_map_of_mem h
  rw [read, map_content_ofLines] at hmem
  obtain ⟨cs, hcs, heq⟩ := List.mem_map.mp hmem
  obtain ⟨line, hline, hpiece⟩ := List.mem_flatMap.mp hcs
  have htext : s.text.toList = cs := by
    rw [← (Prod.mk.inj heq).2, String.toList_ofList]
  rw [htext]
  refine isPiece_of_mem_pieces (fun hmem => ?_) hpiece
  simpa using Text.not_mem_splitWhere hline hmem

/-- The texts of statements with a separator between them. -/
def rejoin (sep : String) (ss : List Statement) : String :=
  Text.join sep (ss.map text)

/-- **Rejoining**: statements that were read are read again from their texts. -/
theorem map_content_read_rejoin {sep : String} (hsep : sep = "\n" ∨ sep = ";")
    (source text : String) :
    (read source (rejoin sep (read source text))).map content =
      (read source text).map content := by
  have hpieces : ∀ t ∈ (read source text).map Statement.text, IsPiece t.toList := by
    intro t ht
    obtain ⟨s, hs, rfl⟩ := List.mem_map.mp ht
    exact isPiece_of_mem_read hs
  have hkinds : ∀ s ∈ read source text, (kindOf s.text.toList, s.text) = s.content := by
    intro s hs
    rw [content, kind_eq_of_mem_read hs]
  rw [read, map_content_ofLines, rejoin, pieces_rejoin hsep hpieces, List.map_map, List.map_map]
  refine List.map_congr_left fun s hs => ?_
  rw [Function.comp_apply, Function.comp_apply, String.ofList_toList, hkinds s hs]

end Statement

/-- A report of `k` lines further down. -/
def Report.moveDown (k : Nat) (r : Report) : Report :=
  { r with statement := r.statement.map (Statement.moveDown k) }

namespace Assembly

/-- Illegal characters in lines further down are reported further down. -/
theorem illegalReports_map_moveDown (k : Nat) (ss : List Statement) :
    illegalReports (ss.map (Statement.moveDown k)) =
      (illegalReports ss).map (Report.moveDown k) := by
  rw [illegalReports, illegalReports, List.filterMap_map, List.map_filterMap]
  congr 1
  funext s
  rw [Function.comp_apply, illegalReport?, illegalReport?, Option.map_map]
  rfl

/-- Illegal characters are reported text by text. -/
theorem illegalReports_append (ss ss' : List Statement) :
    illegalReports (ss ++ ss') = illegalReports ss ++ illegalReports ss' :=
  List.filterMap_append

/-! ## programs -/

/-- Labels are where matching statements are, on whatever lines. -/
theorem labelEntries_of_matches {ss ss' : List Statement}
    (hss : List.Forall₂ Statement.Matches ss ss') (i : Nat) :
    (labelEntries i ss').map (fun l => (l.name, l.location)) =
      (labelEntries i ss).map fun l => (l.name, l.location) := by
  induction hss generalizing i with
  | nil => rfl
  | @cons s s' ss ss' hs hss ih =>
      rw [labelEntries_cons, labelEntries_cons, hs.kind]
      split
      · next hkind => rw [List.map_cons, List.map_cons, ih, hs.labelName hkind]
      · exact ih (i + 1)

/-- **Same contents**: a program depends on the kinds and texts of its statements
only. -/
theorem Assembles.of_texts {ss ss' : List Statement} {p : Program} (h : Assembles ss p)
    (hkinds : ∀ s ∈ ss ++ ss', s.kind = Statement.kindOf s.text.toList)
    (htexts : ss'.map Statement.text = ss.map Statement.text) :
    ∃ p', Assembles ss' p' ∧ p'.code = p.code ∧ p'.constants = p.constants ∧
      p'.labels = p.labels ∧ p'.main = p.main := by
  obtain ⟨hmatches, hliterals⟩ := forall₂_matches_of_text hkinds htexts
  have hlegal : ∀ s ∈ ss', Statement.illegalChar? s.text.toList = none := by
    intro s hs
    have hmem : s.text ∈ ss.map Statement.text := htexts ▸ List.mem_map_of_mem hs
    obtain ⟨r, hr, htext⟩ := List.mem_map.mp hmem
    rw [← htext]
    exact illegalReports_eq_nil_iff.mp h.legal r hr
  obtain ⟨p', hp', hcode, hconstants, hmain⟩ := h.of_matches hmatches hlegal
  refine ⟨p', hp', hcode, ?_, ?_, hmain⟩
  · rw [hconstants, hliterals, ← h.yields.constants_eq]
  · rw [hp'.labels, hp'.labels_eq, h.labels, h.labels_eq, labelEntries_of_matches hmatches]

end Assembly

namespace Statement

/-- **Reading is compositional and stable**.  A text behind a line feed is read, and
its illegal characters are reported, as if it stood alone, with the lines moved down
by the lines in front.  Every statement has a text that is neither empty nor
surrounded by white space, that holds no separator and no comment and does not start
with `#`; statements come in the order of their lines, and these are lines of the
text.  Joined with line feeds or with semicolons, the texts of the statements are
read as statements of the same kinds and texts, and come to the same program. -/
theorem reading_compositional_stable (source : String) :
    (∀ a b : String,
      read source (a ++ "\n" ++ b) =
        read source a ++ (read source b).map (moveDown (a.toList.count '\n' + 1)) ∧
      Assembly.illegalReports (read source (a ++ "\n" ++ b)) =
        Assembly.illegalReports (read source a) ++
          (Assembly.illegalReports (read source b)).map
            (Report.moveDown (a.toList.count '\n' + 1))) ∧
    ∀ text : String,
      (∀ s ∈ read source text,
        IsPiece s.text.toList ∧ 1 ≤ s.line ∧ s.line ≤ text.toList.count '\n' + 1) ∧
      (read source text).Pairwise (·.line ≤ ·.line) ∧
      ∀ sep : String, sep = "\n" ∨ sep = ";" →
        (read source (rejoin sep (read source text))).map content =
          (read source text).map content ∧
        ∀ p, Program.assemble source text = .ok p →
          ∃ p', Program.assemble source (rejoin sep (read source text)) = .ok p' ∧
            p'.code = p.code ∧ p'.constants = p.constants ∧ p'.labels = p.labels ∧
            p'.main = p.main := by
  refine ⟨fun a b => ⟨read_append_newline source a b, ?_⟩, fun text =>
    ⟨fun s hs => ⟨isPiece_of_mem_read hs, ?_⟩, pairwise_ofLines source 1 _, fun sep hsep =>
      ⟨map_content_read_rejoin hsep source text, fun p hp => ?_⟩⟩⟩
  · rw [read_append_newline, Assembly.illegalReports_append, Assembly.illegalReports_map_moveDown]
  · have hline := line_of_mem_ofLines hs
    rw [Text.length_lines] at hline
    omega
  · have htexts : (read source (rejoin sep (read source text))).map Statement.text =
        (read source text).map Statement.text := by
      have hcontents := congrArg (List.map Prod.snd) (map_content_read_rejoin hsep source text)
      rw [List.map_map, List.map_map] at hcontents
      exact hcontents
    have hkinds : ∀ s ∈ read source text ++ read source (rejoin sep (read source text)),
        s.kind = kindOf s.text.toList := fun s hs =>
      (List.mem_append.mp hs).elim kind_eq_of_mem_read kind_eq_of_mem_read
    obtain ⟨p', hp', hsame⟩ := (Assembly.assembles_of_ofStatements hp).of_texts hkinds htexts
    exact ⟨p', (Assembly.ofStatements_eq_ok_iff (by decide)).mpr hp', hsame⟩

/-- Two lines with a comment, and the one line that their statements make with
semicolons only, come to the same code. -/
theorem reading_compositional_stable_comment :
    rejoin ";" (read "test" "main:   ## start\n\tconst 1 ; halt") = "main:;const 1;halt" ∧
    ∃ p p', Program.assemble "test" "main:   ## start\n\tconst 1 ; halt" = .ok p ∧
      Program.assemble "test" "main:;const 1;halt" = .ok p' ∧ p'.code = p.code ∧
      p'.constants = p.constants ∧ p'.labels = p.labels ∧ p'.main = p.main := by
  have htext : rejoin ";" (read "test" "main:   ## start\n\tconst 1 ; halt") =
      "main:;const 1;halt" := by
    decide +kernel
  have hsome : (Program.assemble "test" "main:   ## start\n\tconst 1 ; halt").toOption.isSome =
      true := by
    decide +kernel
  obtain ⟨p, hp⟩ := Option.isSome_iff_exists.mp hsome
  rw [← Program.assemble_eq_ok_iff] at hp
  obtain ⟨_, htexts⟩ := reading_compositional_stable "test"
  obtain ⟨p', hp', hsame⟩ := ((htexts _).2.2 ";" (.inr rfl)).2 p hp
  rw [htext] at hp'
  exact ⟨htext, p, p', hp, hp', hsame⟩

end Statement

end SecdMachine
