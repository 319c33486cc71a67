import Mathlib.Data.List.Forall2
import SecdMachine.Numeral
import SecdMachine.Text.Wrap

/-!
# SecdMachine.Proofs.Filling

What word wrap does to a text.

A paragraph is a list of words, and a layout of it a list of lines, each of which
is a list of words again.  `Filled width ws ls` says what a good layout is, without
saying how to find it: the words are those of the paragraph, a line of more than
one word fits, and no line could have taken the first word of the next one too.
The loop that fills lines finds such a layout (`exists_filled_fill`), and there is
only one (`Filled.eq`), so the two say the same.

The text of a layout is read back word by word (`words_printed`), and a line feed
is white space as well, so the words of a text are those of its paragraphs
(`flatMap_words_lines`).
-/

namespace SecdMachine.Text

variable {width : Int} {l m ws : List String} {ls ls' : List (List String)} {w : String}
  {cs : List Char}

/-! ## layouts -/

/-- The bytes of a line of words, with one space between neighbours. -/
def lineSize (l : List String) : Nat :=
  (join " " l).utf8ByteSize

/-- `Filled width ws ls`: the lines `ls` are the words `ws`, filled in greedily. -/
structure Filled (width : Int) (ws : List String) (ls : List (List String)) : Prop where
  /-- No word is lost, and none changes its place. -/
  flatten : ls.flatten = ws
  /-- A paragraph without words has one line all the same. -/
  blank : ws = [] → ls = [[]]
  /-- No other line is without words. -/
  nonempty : ws ≠ [] → [] ∉ ls
  /-- A line fits, unless it is a single word. -/
  fits : ∀ l ∈ ls, l.length ≤ 1 ∨ lineSize l ≤ width
  /-- A line ends only where the next word would not fit. -/
  full : ls.IsChain fun l m => ∀ w ∈ m.head?, width < lineSize l + 1 + w.utf8ByteSize

/-! ## the size of a line -/

theorem join_append_singleton (sep : String) (hl : l ≠ []) (w : String) :
    join sep (l ++ [w]) = join sep l ++ sep ++ w := by
  cases l with
  | nil => contradiction
  | cons v vs => simp [join]

theorem lineSize_append_singleton (hl : l ≠ []) (w : String) :
    lineSize (l ++ [w]) = lineSize l + 1 + w.utf8ByteSize := by
  have hspace : " ".utf8ByteSize = 1 := by decide
  simp only [lineSize, join_append_singleton _ hl, String.utf8ByteSize_append, hspace]

theorem lineSize_le_append (hl : l ≠ []) (m : List String) : lineSize l ≤ lineSize (l ++ m) := by
  induction m generalizing l with
  | nil => simp
  | cons w m ih =>
      have h := ih (l := l ++ [w]) (by simp)
      rw [lineSize_append_singleton hl, List.append_assoc, List.singleton_append] at h
      omega

/-! ## filling lines -/

/-- The first word of a layout is the first word of its first line. -/
theorem head_of_flatten (hne : [] ∉ ls) (h : ls.flatten = w :: ws) :
    ∀ m ∈ ls.head?, m.head? = some w := by
  cases ls with
  | nil => simp at h
  | cons m ls =>
      cases m with
      | nil => simp at hne
      | cons v m => simp_all

/-- **Step case**: a line that is full goes in front of a layout of the words after
it. -/
theorem Filled.cons (h : Filled width (w :: ws) ls) (hl : l ≠ [])
    (hfits : l.length ≤ 1 ∨ lineSize l ≤ width)
    (hfull : width < lineSize l + 1 + w.utf8ByteSize) :
    Filled width (l ++ w :: ws) (l :: ls) where
  flatten := by simp [h.flatten]
  blank := by simp
  nonempty := by
    have := h.nonempty (List.cons_ne_nil w ws)
    simp [this, Ne.symm hl]
  fits := by simpa [hfits] using h.fits
  full := by
    have hhead := head_of_flatten (h.nonempty (List.cons_ne_nil w ws)) h.flatten
    cases hls : ls with
    | nil => simp
    | cons m ls =>
        rw [hls] at hhead
        have hm : m.head? = some w := hhead m rfl
        rw [List.isChain_cons_cons]
        refine ⟨?_, hls ▸ h.full⟩
        simpa [hm] using hfull

theorem fillFrom_join (width : Int) (l : List String) (w : String) (ws : List String) :
    fillFrom width (join " " l) (w :: ws) =
      if width < lineSize l + 1 + w.utf8ByteSize then join " " l :: fillFrom width w ws
      else fillFrom width (join " " l ++ " " ++ w) ws := rfl

/-- **Run case**: the loop fills the lines from an open one on. -/
theorem exists_filled_fillFrom (hl : l ≠ []) (hfits : l.length ≤ 1 ∨ lineSize l ≤ width)
    (ws : List String) :
    ∃ ls, fillFrom width (join " " l) ws = ls.map (join " ") ∧ Filled width (l ++ ws) ls := by
  induction ws generalizing l with
  | nil =>
      refine ⟨[l], rfl, ?_⟩
      constructor <;> simp [hl, hfits, Ne.symm hl]
  | cons w ws ih =>
      by_cases hfull : width < lineSize l + 1 + w.utf8ByteSize
      · obtain ⟨ls, hls, hfilled⟩ := ih (l := [w]) (by simp) (by simp)
        refine ⟨l :: ls, ?_, hfilled.cons hl hfits hfull⟩
        rw [fillFrom_join, if_pos hfull, List.map_cons, ← hls, join_singleton]
      · obtain ⟨ls, hls, hfilled⟩ := ih (l := l ++ [w]) (by simp) <| by
          rw [lineSize_append_singleton hl]
          omega
        refine ⟨ls, ?_, by simpa using hfilled⟩
        rw [fillFrom_join, if_neg hfull, ← hls, join_append_singleton _ hl]

/-- **Filling**: the lines of a paragraph are a layout of its words. -/
theorem exists_filled_fill (width : Int) (ws : List String) :
    ∃ ls, fill width ws = ls.map (join " ") ∧ Filled width ws ls := by
  cases ws with
  | nil =>
      refine ⟨[[]], rfl, ?_⟩
      constructor <;> simp
  | cons w ws => exact exists_filled_fillFrom (l := [w]) (by simp) (by simp) ws

/-! ## there is only one layout -/

/-- A line does not go on behind the place where another one is full. -/
theorem not_fits_of_full (hl : l ≠ []) (hfull : width < lineSize l + 1 + w.utf8ByteSize)
    (m : List String) : ¬ ((l ++ w :: m).length ≤ 1 ∨ lineSize (l ++ w :: m) ≤ width) := by
  have hpos := List.length_pos_iff.mpr hl
  have hle := lineSize_le_append (l := l ++ [w]) (by simp) m
  rw [lineSize_append_singleton hl, List.append_assoc, List.singleton_append] at hle
  rw [List.length_append, List.length_cons]
  omega

/-- Where a layout goes on with a word, its first line was full for that word. -/
theorem full_of_flatten (hne : [] ∉ ls)
    (hfull : (l :: ls).IsChain fun l m => ∀ w ∈ m.head?, width < lineSize l + 1 + w.utf8ByteSize)
    (h : ls.flatten = w :: ws) : width < lineSize l + 1 + w.utf8ByteSize := by
  have hhead := head_of_flatten hne h
  cases ls with
  | nil => simp at h
  | cons m ls => exact (List.isChain_cons_cons.mp hfull).1 w (hhead m rfl)

/-- **Uniqueness**: a paragraph has one layout. -/
theorem Filled.eq (h : Filled width ws ls) (h' : Filled width ws ls') : ls = ls' := by
  by_cases hws : ws = []
  · rw [h.blank hws, h'.blank hws]
  have hflatten := h.flatten.trans h'.flatten.symm
  have hne := h.nonempty hws
  have hne' := h'.nonempty hws
  have hfits := h.fits
  have hfits' := h'.fits
  have hfull := h.full
  have hfull' := h'.full
  clear h h' hws
  -- Line by line: neither of two first lines can be the longer one.
  induction ls generalizing ls' with
  | nil =>
      cases ls' with
      | nil => rfl
      | cons m ls' => simp_all
  | cons l ls ih =>
      cases ls' with
      | nil => simp_all
      | cons m ls' =>
          rw [List.mem_cons, not_or] at hne hne'
          rw [List.forall_mem_cons] at hfits hfits'
          rw [List.flatten_cons, List.flatten_cons] at hflatten
          obtain ⟨extra, rfl, hrest⟩ | ⟨extra, rfl, hrest⟩ :=
            List.append_eq_append_iff.mp hflatten
          · cases extra with
            | nil =>
                rw [List.append_nil, ih hrest hne.2 hne'.2 hfits.2 hfits'.2 hfull.of_cons
                  hfull'.of_cons]
            | cons w extra =>
                have hw := full_of_flatten hne.2 hfull hrest
                exact absurd hfits'.1 (not_fits_of_full (Ne.symm hne.1) hw extra)
          · cases extra with
            | nil =>
                rw [List.append_nil, ih hrest.symm hne.2 hne'.2 hfits.2 hfits'.2 hfull.of_cons
                  hfull'.of_cons]
            | cons w extra =>
                have hw := full_of_flatten hne'.2 hfull' hrest
                exact absurd hfits.1 (not_fits_of_full (Ne.symm hne'.1) hw extra)

/-! ## the words of a text -/

/-- White space divides the words in front of it from those behind it. -/
theorem words_append_blank {c : Char} (hc : isBlank c = true) (xs ys : List Char) :
    words (xs ++ c :: ys) = words xs ++ words ys := by
  simp only [words, splitWhere_append hc, List.filter_append]

theorem words_cons_blank {c : Char} (hc : isBlank c = true) (cs : List Char) :
    words (c :: cs) = words cs :=
  words_append_blank hc [] cs

theorem words_eq_singleton (hne : cs ≠ []) (h : ∀ c ∈ cs, isBlank c = false) :
    words cs = [cs] := by
  simp [words, splitWhere_eq_singleton h, hne]

/-- A word is read as it is. -/
theorem words_of_mem_words {piece : List Char} (h : piece ∈ words cs) : words piece = [piece] :=
  words_eq_singleton (ne_nil_of_mem_words h) fun _ hc =>
    not_mem_splitWhere (List.mem_of_mem_filter h) hc

/-- The words of the lines of a text are the words of the text. -/
theorem words_join {sep : String} {c : Char} (hsep : sep.toList = [c]) (hc : isBlank c = true)
    (ts : List String) : words (join sep ts).toList = ts.flatMap fun t => words t.toList := by
  induction ts with
  | nil => rfl
  | cons t ts ih =>
      cases ts with
      | nil => simp
      | cons u ts => simp_all [words_append_blank hc]

theorem flatMap_words_lines (cs : List Char) : (lines cs).flatMap words = words cs := by
  have hsep : "\n".toList = ['\n'] := rfl
  have h := words_join hsep (by decide) ((lines cs).map String.ofList)
  rw [join_lines, String.toList_ofList, List.flatMap_map] at h
  simpa using h.symm

/-! ## texts -/

/-- The paragraphs of a text, each as the list of its words. -/
def paragraphs (s : String) : List (List String) :=
  (lines s.toList).map fun cs => (words cs).map String.ofList

/-- A line of words behind a margin of `left` spaces. -/
def printedLine (left : Nat) (l : List String) : String :=
  String.ofList (List.replicate left ' ') ++ join " " l

/-- The text of the layouts of paragraphs, all of whose lines have the margin. -/
def printed (left : Nat) (layouts : List (List (List String))) : String :=
  unlines (layouts.flatten.map (printedLine left))

/-- **Wrapping**: a wrapped text is that of layouts of its paragraphs. -/
theorem exists_layouts_wrap (left : Nat) (right : Int) (s : String) :
    ∃ layouts, List.Forall₂ (Filled (room left right)) (paragraphs s) layouts ∧
      wrap left right s = printed left layouts := by
  rw [wrap, paragraphs]
  induction lines s.toList with
  | nil => exact ⟨[], .nil, rfl⟩
  | cons cs rest ih =>
      obtain ⟨layouts, hfilled, hprinted⟩ := ih
      obtain ⟨ls, hls, hhere⟩ := exists_filled_fill (room left right) ((words cs).map String.ofList)
      refine ⟨ls :: layouts, .cons hhere hfilled, ?_⟩
      have hcons : printed left (ls :: layouts) =
          unlines (ls.map (printedLine left)) ++ printed left layouts := by
        simp [printed, unlines_append]
      rw [hcons, ← hprinted]
      simp [hls, Function.comp_def]
      rfl

/-- Paragraphs have one layout each. -/
theorem layouts_eq {ps : List (List String)} {layouts layouts' : List (List (List String))}
    (h : List.Forall₂ (Filled width) ps layouts) (h' : List.Forall₂ (Filled width) ps layouts') :
    layouts = layouts' := by
  induction h generalizing layouts' with
  | nil =>
      cases h'
      rfl
  | cons hhere _ ih =>
      cases h' with
      | cons hhere' hrest' => rw [hhere.eq hhere', ih hrest']

/-- The layouts of paragraphs have their words. -/
theorem flatten_layouts {ps : List (List String)} {layouts : List (List (List String))}
    (h : List.Forall₂ (Filled width) ps layouts) : layouts.flatten.flatten = ps.flatten := by
  induction h with
  | nil => rfl
  | cons hhere _ ih => simp [hhere.flatten, ih]

/-! ## reading back -/

/-- The words of a line, and of what comes behind it. -/
theorem words_line (left : Nat) (hl : ∀ w ∈ l, words w.toList = [w.toList]) (rest : List Char) :
    words ((printedLine left l).toList ++ '\n' :: rest) = l.map String.toList ++ words rest := by
  have hmargin (n : Nat) : words (List.replicate n ' ' ++ (join " " l).toList) =
      words (join " " l).toList := by
    induction n with
    | zero => rfl
    | succ n ih => rw [List.replicate_succ, List.cons_append, words_cons_blank (by decide), ih]
  rw [words_append_blank (by decide), printedLine, String.toList_append, String.toList_ofList,
    hmargin, words_join rfl (by decide), List.flatMap_congr hl, ← List.map_eq_flatMap]

/-- The words of the text of layouts are those of their lines. -/
theorem words_printed (left : Nat) {layouts : List (List (List String))}
    (h : ∀ w ∈ layouts.flatten.flatten, words w.toList = [w.toList]) :
    words (printed left layouts).toList = layouts.flatten.flatten.map String.toList := by
  rw [printed]
  generalize layouts.flatten = ls at h ⊢
  induction ls with
  | nil => rfl
  | cons l ls ih =>
      rw [List.flatten_cons, List.forall_mem_append] at h
      have hcons : (unlines ((l :: ls).map (printedLine left))).toList =
          (printedLine left l).toList ++ '\n' :: (unlines (ls.map (printedLine left))).toList := by
        simp [unlines]
      rw [hcons, words_line left h.1, ih h.2, List.flatten_cons, List.map_append]

/-- **Reading back**: a wrapped text has the words of the text. -/
theorem words_wrap (left : Nat) (right : Int) (s : String) :
    words (wrap left right s).toList = words s.toList := by
  obtain ⟨layouts, hfilled, hprinted⟩ := exists_layouts_wrap left right s
  have hparagraphs : (paragraphs s).flatten = (words s.toList).map String.ofList := by
    rw [paragraphs, ← flatMap_words_lines, List.map_flatMap, List.flatMap_def]
  have hwords : layouts.flatten.flatten = (words s.toList).map String.ofList := by
    rw [flatten_layouts hfilled, hparagraphs]
  rw [hprinted, words_printed, hwords, List.map_map]
  · simp [Function.comp_def]
  · rw [hwords]
    simpa using fun piece hpiece => words_of_mem_words hpiece

/-! ## the width -/

/-- The width between margins that are machine integers is their distance, as long as
this is a machine integer too. -/
theorem room_eq {left : Nat} {right : Int} (hleft : Numeral.fits left = true)
    (hright : Numeral.fits right = true) :
    room left right =
      if Numeral.fits (right - left) then right - left
      else right - left + 18446744073709551616 := by
  rw [Numeral.fits_iff] at hleft hright
  simp only [room, Int.bmod_def, Numeral.fits_iff]
  omega

/-- **Word wrap**: a wrapped text consists of lines of words, each with the margin in
front, one space between neighbours and a line feed behind it.  They are the lines of
a layout of its paragraphs, one after the other: the words are those of the paragraph,
all of them and in order; a paragraph without words has one empty line, and no other
line is empty; a line has a single word, or fits into the width between the margins;
and where a line ends, one space and the next word would not have fitted.  This layout
is the only one with these properties, and the wrapped text, read on its own, has the
words of the text.

The width is the distance of the margins, unless the right one lies so far in front of
the left one that the distance is no machine integer; then it wraps around. -/
theorem wrap_greedy (left : Nat) (right : Int) (s : String) :
    (∃ layouts, List.Forall₂ (Filled (room left right)) (paragraphs s) layouts ∧
      wrap left right s = printed left layouts ∧
      ∀ layouts', List.Forall₂ (Filled (room left right)) (paragraphs s) layouts' →
        layouts' = layouts) ∧
    words (wrap left right s).toList = words s.toList ∧
    (Numeral.fits left = true → Numeral.fits right = true →
      room left right =
        if Numeral.fits (right - left) then right - left
        else right - left + 18446744073709551616) := by
  refine ⟨?_, words_wrap left right s, room_eq⟩
  obtain ⟨layouts, hfilled, hprinted⟩ := exists_layouts_wrap left right s
  exact ⟨layouts, hfilled, hprinted, fun layouts' h => layouts_eq h hfilled⟩

/-- A paragraph of three words, one of them longer than the eight bytes between the
margins since two of its letters are beyond ASCII, and an empty one. -/
theorem wrap_greedy_narrow :
    ∃ layouts, List.Forall₂ (Filled 8) (paragraphs "to übergrö\u00dfe it\n") layouts ∧
      printed 2 layouts = "  to\n  übergrö\u00dfe\n  it\n  \n" := by
  obtain ⟨⟨layouts, hfilled, hprinted, _⟩, _, hroom⟩ := wrap_greedy 2 10 "to übergrö\u00dfe it\n"
  have hwidth : room 2 10 = 8 := hroom rfl rfl
  refine ⟨layouts, hwidth ▸ hfilled, ?_⟩
  rw [← hprinted]
  decide +kernel

/-- Margins may be too far apart: here two words share a line although the right margin
lies in front of the left one, so that no two words would fit. -/
theorem wrap_around :
    wrap 1 (-9223372036854775808) "a b" = " a b\n" ∧
    ¬ ∃ layouts, List.Forall₂ (Filled (-9223372036854775808 - 1)) (paragraphs "a b") layouts ∧
      wrap 1 (-9223372036854775808) "a b" = printed 1 layouts := by
  have hshown : wrap 1 (-9223372036854775808) "a b" = " a b\n" := by decide +kernel
  refine ⟨hshown, ?_⟩
  rintro ⟨layouts, hfilled, hprinted⟩
  have hlayout : Filled (-9223372036854775808 - 1) ["a", "b"] [["a"], ["b"]] := by
    constructor <;> simp [lineSize]
    omega
  have hparagraphs : paragraphs "a b" = [["a", "b"]] := by decide +kernel
  rw [hparagraphs] at hfilled
  obtain rfl := layouts_eq hfilled (.cons hlayout .nil)
  rw [hshown] at hprinted
  revert hprinted
  decide +kernel

end SecdMachine.Text
