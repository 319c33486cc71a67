import Mathlib.Data.List.Chain
import Mathlib.Data.List.Nodup
import SecdMachine.Proofs.Extension
import SecdMachine.Proofs.Shift

/-!
# SecdMachine.Proofs.Insertion

A label that nothing refers to can be put anywhere.

`InsertsLabel` says that the statements of one text are those of another with a
label statement more; the lines that they stand on, and what is between them,
may differ.  A line with the label alone inserts it (`insertsLabel_line`).

The statements around the new one are assembled as before, with the locations in
them moved (`Assembles.insert`), so that the one program is the other with one
more label line.  How their runs correspond is shown in `SecdMachine.Proofs.Shift`,
and the main statement is `label_insertion_harmless`.
-/

namespace SecdMachine

/-! ## tables of characters -/

namespace Text

variable {rs qs : List (Nat × Nat)} {n : Nat} {c : Char}

theorem exists_of_inRanges (h : inRanges rs n = true) : ∃ r ∈ rs, r.1 ≤ n ∧ n ≤ r.2 := by
  induction rs with
  | nil => cases h
  | cons r rs ih =>
      rw [inRanges] at h
      split at h
      · cases h
      · next hlo =>
          by_cases hhi : n ≤ r.2
          · exact ⟨r, List.mem_cons_self, Nat.le_of_not_lt hlo, hhi⟩
          · obtain ⟨q, hq, hn⟩ := ih (by simpa [hhi] using h)
            exact ⟨q, List.mem_cons_of_mem r hq, hn⟩

/-- What lies in a range of a table is found, if the ranges are in order. -/
theorem inRanges_of_mem (hrs : rs.IsChain (·.1 ≤ ·.1)) {r : Nat × Nat} (hr : r ∈ rs)
    (hlo : r.1 ≤ n) (hhi : n ≤ r.2) : inRanges rs n = true := by
  induction rs with
  | nil => cases hr
  | cons q rs ih =>
      have : IsTrans (Nat × Nat) (·.1 ≤ ·.1) := ⟨fun _ _ _ h h' => Nat.le_trans h h'⟩
      obtain ⟨hle, _⟩ := List.pairwise_cons.mp (List.isChain_iff_pairwise.mp hrs)
      cases List.mem_cons.mp hr with
      | inl h => simp [inRanges, ← h, hhi, Nat.not_lt.mpr hlo]
      | inr h =>
          have hq : ¬ n < q.1 := Nat.not_lt.mpr (Nat.le_trans (hle r h) hlo)
          simp [inRanges, hq, ih hrs.tail h]

/-- Whether the ranges of the second table lie in those of the first, when both are
gone through in order. -/
def within : List (Nat × Nat) → List (Nat × Nat) → Bool
  | [], rs => rs.isEmpty
  | q :: qs, rs => within qs (rs.dropWhile fun r => q.1 ≤ r.1 && r.2 ≤ q.2)

theorem exists_of_within (h : within qs rs = true) {r : Nat × Nat} (hr : r ∈ rs) :
    ∃ q ∈ qs, q.1 ≤ r.1 ∧ r.2 ≤ q.2 := by
  induction qs generalizing rs with
  | nil => simp [List.isEmpty_iff.mp h] at hr
  | cons q qs ih =>
      rw [← List.takeWhile_append_dropWhile (p := fun r => q.1 ≤ r.1 && r.2 ≤ q.2) (l := rs)] at hr
      cases List.mem_append.mp hr with
      | inl hr =>
          have hq := List.all_eq_true.mp List.all_takeWhile r hr
          exact ⟨q, List.mem_cons_self, by simpa using hq⟩
      | inr hr =>
          obtain ⟨q', hq', hr'⟩ := ih h hr
          exact ⟨q', List.mem_cons_of_mem q hq', hr'⟩

theorem inRanges_of_within (h : within qs rs = true) (hqs : qs.IsChain (·.1 ≤ ·.1))
    (hn : inRanges rs n = true) : inRanges qs n = true := by
  obtain ⟨r, hr, hlo, hhi⟩ := exists_of_inRanges hn
  obtain ⟨q, hq, hlo', hhi'⟩ := exists_of_within h hr
  exact inRanges_of_mem hqs hq (Nat.le_trans hlo' hlo) (Nat.le_trans hhi hhi')

theorem inTable_of_within {rs' qs' : List (Nat × Nat)} (h : within qs rs = true)
    (hqs : qs.IsChain (·.1 ≤ ·.1)) (h' : within qs' rs' = true) (hqs' : qs'.IsChain (·.1 ≤ ·.1))
    (hc : inTable rs rs' c = true) : inTable qs qs' c = true := by
  unfold inTable at hc ⊢
  split at hc
  · next hbasic => rw [if_pos hbasic, inRanges_of_within h hqs hc]
  · next hbasic => rw [if_neg hbasic, inRanges_of_within h' hqs' hc]

/-- The table of graphic characters is in order, and those of letters and digits lie
in it. -/
theorem within_graphicRanges :
    (graphicRanges.IsChain (·.1 ≤ ·.1) ∧ graphicRangesAbove.IsChain (·.1 ≤ ·.1)) ∧
    (within graphicRanges letterRanges = true ∧
      within graphicRangesAbove letterRangesAbove = true) ∧
    within graphicRanges digitRanges = true ∧
      within graphicRangesAbove digitRangesAbove = true := by
  decide +kernel

/-- Letters are graphic. -/
theorem isGraphic_of_isLetter (h : isLetter c = true) : isGraphic c = true := by
  obtain ⟨⟨hchain, hchain'⟩, ⟨hletters, hletters'⟩, _⟩ := within_graphicRanges
  exact inTable_of_within hletters hchain hletters' hchain' h

/-- Digits are graphic. -/
theorem isGraphic_of_isDecimalDigit (h : isDecimalDigit c = true) : isGraphic c = true := by
  obtain ⟨⟨hchain, hchain'⟩, _, hdigits, hdigits'⟩ := within_graphicRanges
  exact inTable_of_within hdigits hchain hdigits' hchain' h

/-- White space is neither a letter nor a digit. -/
theorem not_isLetter_of_isBlank (h : isBlank c = true) :
    isLetter c = false ∧ isDecimalDigit c = false := by
  have hmem : c.toNat ∈ [9, 10, 11, 12, 13, 0x20, 0x85, 0xA0, 0x1680, 0x2000, 0x2001, 0x2002,
      0x2003, 0x2004, 0x2005, 0x2006, 0x2007, 0x2008, 0x2009, 0x200A, 0x2028, 0x2029, 0x202F,
      0x205F, 0x3000] := by
    simp only [isBlank, Bool.or_eq_true, Bool.and_eq_true, decide_eq_true_eq, beq_iff_eq] at h
    simp only [List.mem_cons, List.not_mem_nil, or_false]
    omega
  unfold isLetter isDecimalDigit inTable
  generalize c.toNat = n at hmem
  revert n
  decide +kernel

end Text

/-! ## label statements -/

namespace Statement

variable {name : String} {s : Statement}

/-- The characters of an identifier may stand in a statement, and none of them
separates anything. -/
theorem of_mem_identifier (h : Assembly.isIdentifier name.toList = true) {c : Char}
    (hc : c ∈ name.toList) :
    Text.isGraphic c = true ∧ Text.isBlank c = false ∧ c ≠ '#' ∧ c ≠ ';' ∧ c ≠ '\n' := by
  have hkinds : c = '_' ∨ Text.isLetter c = true ∨ Text.isDecimalDigit c = true := by
    cases hcs : name.toList with
    | nil => simp [hcs] at hc
    | cons d ds =>
        simp only [hcs, Assembly.isIdentifier, Bool.and_eq_true, Bool.or_eq_true, beq_iff_eq,
          List.all_eq_true] at h
        rw [hcs] at hc
        cases List.mem_cons.mp hc with
        | inl hd => exact hd ▸ h.1.imp_right .inl
        | inr hd => exact or_assoc.mp (h.2 c hd)
  have hblank : Text.isBlank c = false := by
    refine Bool.eq_false_iff.mpr fun hblank => ?_
    obtain ⟨hletter, hdigit⟩ := Text.not_isLetter_of_isBlank hblank
    obtain rfl | h | h := hkinds
    · revert hblank
      decide
    · rw [hletter] at h
      cases h
    · rw [hdigit] at h
      cases h
  refine ⟨?_, hblank, ?_, ?_, ?_⟩
  · obtain rfl | h | h := hkinds
    · decide +kernel
    · exact Text.isGraphic_of_isLetter h
    · exact Text.isGraphic_of_isDecimalDigit h
  all_goals
    rintro rfl
    revert hkinds
    decide +kernel

theorem toList_label (name : String) : (name ++ ":").toList = name.toList ++ [':'] := by
  simp

theorem illegalChar?_label (h : Assembly.isIdentifier name.toList = true) :
    illegalChar? (name ++ ":").toList = none := by
  rw [illegalChar?_eq_none_iff, toList_label]
  intro c hc
  cases List.mem_append.mp hc with
  | inl hc => exact .inr (of_mem_identifier h hc).1
  | inr hc =>
      rw [List.mem_singleton.mp hc]
      exact .inr (by decide +kernel)

theorem kindOf_label (h : Assembly.isIdentifier name.toList = true) :
    kindOf (name ++ ":").toList = .label := by
  rw [kindOf, illegalChar?_label h, toList_label]
  simp

theorem labelName_label (h : Assembly.isIdentifier name.toList = true)
    (hs : s.text = name ++ ":") : s.labelName = name := by
  have hdrop : dropColon (name ++ ":").toList = name.toList := by
    simp [dropColon]
  rw [labelName, hs, hdrop, Text.trim_eq_self fun c hc => (of_mem_identifier h hc).2.1,
    String.ofList_toList]

/-- A line with a label alone is the label statement. -/
theorem pieces_label (h : Assembly.isIdentifier name.toList = true) :
    pieces (name ++ ":").toList = [(name ++ ":").toList] := by
  have hchars : ∀ c ∈ (name ++ ":").toList, Text.isBlank c = false ∧ c ≠ '#' ∧ c ≠ ';' := by
    intro c hc
    rw [toList_label] at hc
    cases List.mem_append.mp hc with
    | inl hc =>
        obtain ⟨_, hblank, hcomment, hsemicolon, _⟩ := of_mem_identifier h hc
        exact ⟨hblank, hcomment, hsemicolon⟩
    | inr hc =>
        rw [List.mem_singleton.mp hc]
        decide
  have hcontent : isContent (name ++ ":").toList = true := by
    cases hcs : (name ++ ":").toList with
    | nil => simp at hcs
    | cons c cs => simpa [isContent] using (hchars c (by simp [hcs])).2.1
  generalize (name ++ ":").toList = cs at hchars hcontent
  rw [pieces, beforeComment_eq_self fun c hc => (hchars c hc).2.1,
    Text.splitWhere_eq_singleton fun c hc => by simpa using (hchars c hc).2.2]
  simp [Text.trim_eq_self fun c hc => (hchars c hc).1, hcontent]

end Statement

/-! ## one statement more -/

/-- `InsertsLabel name ss ss'`: the statements `ss'` have the texts of `ss`, and one
more that defines the label `name`, in front of them, between two of them or
behind them. -/
def InsertsLabel (name : String) (ss ss' : List Statement) : Prop :=
  ∃ before after, ss.map Statement.text = before ++ after ∧
    ss'.map Statement.text = before ++ (name ++ ":") :: after

/-- A line with the label alone inserts it. -/
theorem insertsLabel_line {name : String} (h : Assembly.isIdentifier name.toList = true)
    (source a b : String) :
    InsertsLabel name (Statement.read source (a ++ "\n" ++ b))
      (Statement.read source (a ++ "\n" ++ (name ++ ":" ++ "\n" ++ b))) := by
  have htexts (m n : Nat) (lines : List (List Char)) :
      (Statement.ofLines source m lines).map Statement.text =
        (Statement.ofLines source n lines).map Statement.text := by
    induction lines generalizing m n with
    | nil => rfl
    | cons line lines ih =>
        simp [Statement.ofLines, Statement.ofChars, ih (m + 1) (n + 1), Function.comp_def]
  have hline : Text.lines (name ++ ":" ++ "\n" ++ b).toList =
      (name ++ ":").toList :: Text.lines b.toList := by
    have hone : ∀ c ∈ (name ++ ":").toList, (c == '\n') = false := by
      intro c hc
      rw [Statement.toList_label] at hc
      cases List.mem_append.mp hc with
      | inl hc => simpa using (Statement.of_mem_identifier h hc).2.2.2.2
      | inr hc => simpa using fun he => absurd (he ▸ List.mem_singleton.mp hc) (by decide)
    rw [Text.lines_append, Text.lines, Text.splitWhere_eq_singleton hone]
    rfl
  refine ⟨_, _, by rw [Statement.read_append, List.map_append], ?_⟩
  rw [Statement.read_append, hline, Statement.ofLines, Statement.pieces_label h]
  simp only [List.map_append, List.map_cons, List.map_nil, List.singleton_append]
  rw [htexts _ (1 + (Text.lines a.toList).length)]
  simp [Statement.ofChars]

namespace Assembly

variable {name : String} {s : Statement} {before before' after after' : List Statement}
  {p : Program}

theorem labelledNames_append (ss ss' : List Statement) :
    labelledNames (ss ++ ss') = labelledNames ss ++ labelledNames ss' := by
  simp [labelledNames]

/-- Statements with the same texts match. -/
theorem forall₂_matches_of_text {ss ss' : List Statement}
    (hkinds : ∀ s ∈ ss ++ ss', s.kind = Statement.kindOf s.text.toList)
    (h : ss'.map Statement.text = ss.map Statement.text) :
    List.Forall₂ Statement.Matches ss ss' ∧
      ss'.filterMap Statement.literal? = ss.filterMap Statement.literal? := by
  induction ss generalizing ss' with
  | nil =>
      obtain rfl : ss' = [] := by simpa using h
      exact ⟨.nil, rfl⟩
  | cons s ss ih =>
      cases ss' with
      | nil => simp at h
      | cons s' ss' =>
          rw [List.map_cons, List.map_cons, List.cons.injEq] at h
          obtain ⟨htext, htexts⟩ := h
          have hkind : s'.kind = s.kind := by
            rw [hkinds s' (by simp), hkinds s (by simp), htext]
          obtain ⟨hmatches, hliterals⟩ := ih (fun r hr => hkinds r (by grind)) htexts
          refine ⟨.cons ⟨hkind, .inl htext⟩ hmatches, ?_⟩
          rw [List.filterMap_cons, List.filterMap_cons, hliterals,
            Statement.literal?_eq_of_text hkind htext]

/-- What stands around a new element is found past it. -/
theorem getElem?_shift {α : Type} (xs : List α) (x : α) (ys : List α) (i : Nat) :
    (xs ++ x :: ys)[shift xs.length i]? = (xs ++ ys)[i]? := by
  unfold shift
  by_cases hi : i < xs.length
  · rw [if_pos hi, List.getElem?_append_left hi, List.getElem?_append_left hi]
  · have hle : xs.length ≤ i := Nat.le_of_not_lt hi
    have hindex : i + 1 - xs.length = i - xs.length + 1 := by omega
    rw [if_neg hi, List.getElem?_append_right (by omega), hindex, List.getElem?_cons_succ,
      List.getElem?_append_right hle]

/-- Where the statements around a new one are found. -/
theorem getElem?_insert (hbefore : List.Forall₂ Statement.Matches before before')
    (hafter : List.Forall₂ Statement.Matches after after') (i : Nat) (r : Statement)
    (hr : (before ++ after)[i]? = some r) :
    ∃ r', (before' ++ s :: after')[shift before.length i]? = some r' ∧ r.Matches r' := by
  have hmatches : List.Forall₂ Statement.Matches (before ++ after) (before' ++ after') :=
    List.rel_append hbefore hafter
  obtain ⟨hi, rfl⟩ := List.getElem?_eq_some_iff.mp hr
  have hi' : i < (before' ++ after').length := hmatches.length_eq ▸ hi
  rw [hbefore.length_eq, getElem?_shift, List.getElem?_eq_getElem hi']
  exact ⟨_, rfl, hmatches.get hi hi'⟩

theorem legal_insert (h : Assembles (before ++ after) p)
    (hbefore : before'.map Statement.text = before.map Statement.text)
    (hafter : after'.map Statement.text = after.map Statement.text)
    (hname : isIdentifier name.toList = true) (hs : s.text = name ++ ":") :
    ∀ r ∈ before' ++ s :: after', Statement.illegalChar? r.text.toList = none := by
  have hlegal := illegalReports_eq_nil_iff.mp h.legal
  have htexts : ∀ text ∈ (before' ++ s :: after').map Statement.text,
      Statement.illegalChar? text.toList = none := by
    rw [List.map_append, List.map_cons, hbefore, hafter, hs]
    intro text htext
    have hcases : text = name ++ ":" ∨ text ∈ (before ++ after).map Statement.text := by grind
    obtain rfl | hmem := hcases
    · exact Statement.illegalChar?_label hname
    · obtain ⟨r, hr, rfl⟩ := List.mem_map.mp hmem
      exact hlegal r hr
  exact fun r hr => htexts r.text (List.mem_map_of_mem hr)

/-- **Insertion**: statements with a label among them make the same program with one
more label line. -/
theorem Assembles.insert (h : Assembles (before ++ after) p)
    (hkinds : ∀ r ∈ before ++ after ++ (before' ++ s :: after'),
      r.kind = Statement.kindOf r.text.toList)
    (hbefore : before'.map Statement.text = before.map Statement.text)
    (hafter : after'.map Statement.text = after.map Statement.text)
    (hname : isIdentifier name.toList = true) (hs : s.text = name ++ ":")
    (hnew : name ∉ labelledNames (before ++ after)) :
    ∃ p', Assembles (before' ++ s :: after') p' ∧ p.Inserted before.length p' := by
  obtain ⟨hbefores, hliterals⟩ :=
    forall₂_matches_of_text (fun r hr => hkinds r (by grind)) hbefore
  obtain ⟨hafters, hliterals'⟩ :=
    forall₂_matches_of_text (fun r hr => hkinds r (by grind)) hafter
  have hlabel : s.kind = .label := by
    rw [hkinds s (by simp), hs, Statement.kindOf_label hname]
  have hnames : labelledNames (before' ++ s :: after') =
      labelledNames before ++ name :: labelledNames after := by
    rw [labelledNames_append, labelledNames_cons, if_pos hlabel,
      Statement.labelName_label hname hs, labelledNames_of_matches hbefores,
      labelledNames_of_matches hafters]
  rw [labelledNames_append] at hnew
  have hidentifiers := h.identifiers
  have hnodup := h.nodup
  rw [labelledNames_append] at hidentifiers hnodup
  have hnodup' : (labelledNames (before' ++ s :: after')).Nodup := by
    rw [hnames, List.nodup_middle, List.nodup_cons]
    exact ⟨hnew, hnodup⟩
  have hl : Relocates (shift before.length) (labelEntries 0 (before ++ after))
      (labelEntries 0 (before' ++ s :: after')) :=
    relocates_labelEntries hnodup' (getElem?_insert hbefores hafters)
  -- The operations in front of the label and behind it, each with its constants.
  obtain ⟨c, c', k, k', hcode, hconstants, hfront, hback⟩ :=
    yields_append_iff.mp h.yields_labelEntries
  have hlength : c.length = before.length := hfront.length_code
  have hfront' := hfront.relocate hbefores hl
  have hback' := hback.relocate hafters hl
  rw [hliterals, ← hfront.constants_eq] at hfront'
  rw [hliterals', ← hback.constants_eq] at hback'
  have hs' : assembleStatement (labelEntries 0 (before' ++ s :: after')) (0 + k.length) s =
      .ok { operation := .label } := by
    unfold assembleStatement
    rw [hlabel]
  have hyields := yields_append_iff.mpr ⟨_, _, _, _, rfl, rfl, hfront', .cons hs' hback'⟩
  obtain ⟨l, hmain, hlocation⟩ := h.findLabel?_main
  obtain ⟨l', hmain', hlocation'⟩ := hl _ _ hmain
  obtain ⟨p', hp', hcode', hconstants', hp'main⟩ := exists_assembles_of_yields
    (legal_insert h hbefore hafter hname hs) (by rw [hnames]; grind) hnodup' hyields hmain'
  refine ⟨p', hp', ?_, fun i => ?_, by rw [hconstants', hconstants]; rfl,
    by rw [hp'main, hlocation', hlocation], h.wellFormed.literal⟩
  · rw [hcode', List.getElem?_append_right (by simp [hlength])]
    simp [hlength]
  · have hmoved := getElem?_shift (c.map (Operation.relocate (shift before.length))) .label
      (c'.map (Operation.relocate (shift before.length))) i
    rw [List.length_map, hlength, ← List.map_append, List.getElem?_map] at hmoved
    rw [hcode', hcode, hmoved]

end Assembly

/-- A label statement of a text defines a name. -/
theorem mem_definedNames_of_mem_labelledNames {source text name : String}
    (h : name ∈ Assembly.labelledNames (Statement.read source text)) :
    name ∈ definedNames (Statement.read source text) := by
  obtain ⟨s, hs, rfl⟩ := List.mem_map.mp h
  obtain ⟨hmem, hkind⟩ := List.mem_filter.mp hs
  refine List.mem_map_of_mem (List.mem_filter.mpr ⟨hmem, ?_⟩)
  have hkindOf : Statement.kindOf s.text.toList = .label := by
    rw [← Statement.kind_eq_of_mem_read hmem]
    simpa using hkind
  unfold Statement.kindOf at hkindOf
  split at hkindOf
  · cases hkindOf
  · split at hkindOf
    · next hcolon => simpa [Statement.endsInColon] using hcolon
    · cases hkindOf

namespace Program

/-- **Labels do nothing**: if a text is accepted, so is every text with one more
statement among its own, which defines a label of a new name.  A run of the one
program halts with an integer or a boolean, or fails with the fault of an
identifier, exactly if a run of the other does, and one never ends exactly if the
other does not. -/
theorem label_insertion_harmless {source text text' name : String} {p : Program}
    (hp : assemble source text = .ok p) (hname : Assembly.isIdentifier name.toList = true)
    (hnew : name ∉ definedNames (Statement.read source text))
    (hinserts : InsertsLabel name (Statement.read source text) (Statement.read source text')) :
    ∃ p', assemble source text' = .ok p' ∧
      (∀ v : Value, v.isScalar = true → (p.HaltsWith v ↔ p'.HaltsWith v)) ∧
      (∀ id : String, p.FailsWith id ↔ p'.FailsWith id) ∧
      (p.RunsForever ↔ p'.RunsForever) := by
  have h := Assembly.assembles_of_ofStatements hp
  have hkinds : ∀ s ∈ Statement.read source text ++ Statement.read source text',
      s.kind = Statement.kindOf s.text.toList := fun s hs =>
    (List.mem_append.mp hs).elim Statement.kind_eq_of_mem_read Statement.kind_eq_of_mem_read
  have hnew' := mt mem_definedNames_of_mem_labelledNames hnew
  have haccepted (p' : Program) (hp' : Assembly.Assembles (Statement.read source text') p') :
      assemble source text' = .ok p' :=
    (Assembly.ofStatements_eq_ok_iff (by decide)).mpr hp'
  obtain ⟨texts, texts', hss, hss'⟩ := hinserts
  generalize Statement.read source text = ss at h hkinds hnew' hss
  generalize Statement.read source text' = ss' at hkinds haccepted hss'
  obtain ⟨before, after, rfl, rfl, rfl⟩ := List.map_eq_append_iff.mp hss
  obtain ⟨before', rest, rfl, hbefore, hrest⟩ := List.map_eq_append_iff.mp hss'
  obtain ⟨s, after', rfl, hs, hafter⟩ := List.map_eq_cons_iff.mp hrest
  obtain ⟨p', hp', hinserted⟩ := h.insert hkinds hbefore hafter hname hs hnew'
  exact ⟨p', haccepted p' hp', fun v hv => (hinserted.haltsWith_iff hv).symm,
    fun id => hinserted.failsWith_iff.symm, hinserted.runsForever_iff.symm⟩

/-- Behind the first call of `twoCalls`, where its return comes to, a label changes
nothing. -/
theorem label_insertion_harmless_twoCalls :
    ∃ p', assemble "test" "main:; closures f; access $1; focus 1; access $1; focus 1; const 9
  applyn; g:; closures f; applyn; halt
  f:; access $1; return" = .ok p' ∧ p'.HaltsWith (.int 9) := by
  have hinserts : InsertsLabel "g" (Statement.read "test" twoCallsText) (Statement.read "test"
      "main:; closures f; access $1; focus 1; access $1; focus 1; const 9
  applyn; g:; closures f; applyn; halt
  f:; access $1; return") :=
    ⟨["main:", "closures f", "access $1", "focus 1", "access $1", "focus 1", "const 9", "applyn"],
      ["closures f", "applyn", "halt", "f:", "access $1", "return"], by decide +kernel,
      by decide +kernel⟩
  obtain ⟨p', hp', hhalts, _⟩ := label_insertion_harmless assemble_twoCallsText
    (by decide +kernel) (by decide +kernel) hinserts
  exact ⟨p', hp', (hhalts (.int 9) rfl).mp ⟨17, _, rfl, rfl⟩⟩

end Program

end SecdMachine
