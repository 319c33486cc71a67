import SecdMachine.Proofs.Batch
import SecdMachine.Proofs.Codeless

/-!
# SecdMachine.Proofs.Monochrome

Colour changes nothing but colour.

`Palette.erase` deletes the codes of colours from a text.  Deleting is said of the text
with anything behind it (`Fades`), so that it goes through texts part by part: a
codeless text fades to itself, painted text to the text, and parts that fade make texts
that fade.  Every place that shows something is made of these
(`Console.fades_stateBlock`, `Console.fades_ending`, `Console.fades_remarks`).

`Console.Request` is whatever can be asked of a console, and `Console.Twins` relates a
console with colours to one without that stand at the same place of the same run, with
notes that fade.  What is asked of twins leaves twins, and their replies are the same
but for colour (`Console.Twins.respond`); so are all replies of a session
(`Console.Twins.replies`).
-/

namespace SecdMachine

/-! ## deleting codes -/

namespace Palette

/-- The codes that start a colour or a style, and the one that ends all of them. -/
def codes : List String :=
  ["\x1b[0m", "\x1b[3m", "\x1b[31m", "\x1b[32m", "\x1b[33m", "\x1b[34m", "\x1b[35m", "\x1b[36m",
    "\x1b[37m", "\x1b[97m"]

/-- Deletes the codes from a text, the first `n` characters of which are the rest of
one that has begun. -/
def eraseFrom : Nat → List Char → List Char
  | _, [] => []
  | n + 1, _ :: cs => eraseFrom n cs
  | 0, c :: cs =>
    match (codes.map String.toList).find? (·.isPrefixOf (c :: cs)) with
    | some code => eraseFrom (code.length - 1) cs
    | none => c :: eraseFrom 0 cs

/-- The text without the codes of colours. -/
def erase (s : String) : String :=
  String.ofList (eraseFrom 0 s.toList)

variable {c : Char} {cs code rest : List Char}

/-- Every code is the escape character, a bracket, and a digit in front of the rest. -/
theorem exists_digit_of_mem_codes (h : code ∈ codes.map String.toList) :
    ∃ d cs, code = '\x1b' :: '[' :: d :: cs ∧ d.isDigit = true := by
  simp only [codes, List.map_cons, List.map_nil, String.reduceToList, List.mem_cons,
    List.not_mem_nil, or_false] at h
  rcases h with rfl | rfl | rfl | rfl | rfl | rfl | rfl | rfl | rfl | rfl <;>
    exact ⟨_, _, rfl, by decide⟩

/-- No code begins another one. -/
theorem eq_of_isPrefix_codes {code' : List Char} (h : code ∈ codes.map String.toList)
    (h' : code' ∈ codes.map String.toList) (hbegins : code <+: code') : code = code' := by
  have hall : ∀ code ∈ codes.map String.toList, ∀ code' ∈ codes.map String.toList,
      code.isPrefixOf code' = true → code = code' := by
    decide +kernel
  exact hall code h code' h' (List.isPrefixOf_iff_prefix.mpr hbegins)

theorem eraseFrom_nil : eraseFrom 0 [] = [] := rfl

/-- The rest of a code that has begun is deleted. -/
theorem eraseFrom_append (n : Nat) (h : cs.length = n) :
    eraseFrom n (cs ++ rest) = eraseFrom 0 rest := by
  subst h
  induction cs with
  | nil => rfl
  | cons c cs ih => exact ih

/-- A character that no code begins with stays. -/
theorem eraseFrom_cons (h : ∀ code ∈ codes.map String.toList, ¬ code <+: c :: cs) :
    eraseFrom 0 (c :: cs) = c :: eraseFrom 0 cs := by
  have hnone : (codes.map String.toList).find? (·.isPrefixOf (c :: cs)) = none := by
    simpa [List.isPrefixOf_iff_prefix] using h
  rw [eraseFrom, hnone]

/-- A character other than the escape character stays, since all codes begin with that
one. -/
theorem eraseFrom_cons_of_ne (h : c ≠ '\x1b') : eraseFrom 0 (c :: cs) = c :: eraseFrom 0 cs := by
  refine eraseFrom_cons fun code hcode hbegins => ?_
  obtain ⟨d, rest, rfl, _⟩ := exists_digit_of_mem_codes hcode
  exact h (List.cons_prefix_cons.mp hbegins).1.symm

/-- A code goes. -/
theorem eraseFrom_code (h : code ∈ codes.map String.toList) :
    eraseFrom 0 (code ++ rest) = eraseFrom 0 rest := by
  obtain ⟨d, cs, hcode, _⟩ := exists_digit_of_mem_codes h
  have hsplit : code ++ rest = '\x1b' :: ('[' :: d :: cs ++ rest) := by
    rw [hcode]
    rfl
  cases hfind : (codes.map String.toList).find? (·.isPrefixOf (code ++ rest)) with
  | none =>
      have hnot := List.find?_eq_none.mp hfind code h
      simp at hnot
  | some found =>
      -- The code that is found is the one that stands there, since both begin the text.
      have hmem := List.mem_of_find?_eq_some hfind
      have hfound : found <+: code ++ rest :=
        List.isPrefixOf_iff_prefix.mp (by simpa using List.find?_some hfind)
      have hsame : found = code := by
        obtain hle | hle := List.prefix_or_prefix_of_prefix hfound (List.prefix_append code rest)
        · exact eq_of_isPrefix_codes hmem h hle
        · exact (eq_of_isPrefix_codes h hmem hle).symm
      rw [hsplit] at hfind ⊢
      rw [eraseFrom, hfind, hsame]
      refine eraseFrom_append _ ?_
      rw [hcode]
      rfl

end Palette

open Palette

/-- `Fades s t`: without the codes of colours the text `s` is `t`, and they do not run
into what comes behind. -/
def Fades (s t : String) : Prop :=
  ∀ rest, eraseFrom 0 (s.toList ++ rest) = t.toList ++ eraseFrom 0 rest

variable {s s' t t' : String} {ss ts : List String}

/-- Erasing the codes of a text that fades gives what it fades to. -/
theorem Fades.erase (h : Fades s t) : Palette.erase s = t := by
  have hend := h []
  rw [List.append_nil, eraseFrom_nil, List.append_nil] at hend
  rw [Palette.erase, hend, String.ofList_toList]

/-- Texts that fade do so when one is put behind the other. -/
theorem Fades.append (h : Fades s t) (h' : Fades s' t') : Fades (s ++ s') (t ++ t') := by
  intro rest
  rw [String.toList_append, String.toList_append, List.append_assoc, h, h', List.append_assoc]

/-- A codeless text stays as it is. -/
theorem Codeless.fades (h : Codeless s) : Fades s s := by
  unfold Codeless at h
  intro rest
  generalize s.toList = cs at h ⊢
  induction cs with
  | nil => rfl
  | cons c cs ih =>
      rw [List.mem_cons, not_or] at h
      rw [List.cons_append, eraseFrom_cons_of_ne (Ne.symm h.1), ih h.2, List.cons_append]

theorem fades_ofList {cs : List Char} (h : '\x1b' ∉ cs) :
    Fades (String.ofList cs) (String.ofList cs) :=
  (codeless_ofList h).fades

/-- A code fades to nothing. -/
theorem fades_code (h : s ∈ codes) : Fades s "" :=
  fun _ => eraseFrom_code (List.mem_map_of_mem h)

/-- Texts that fade one by one fade when they are put together. -/
theorem Fades.concat (h : List.Forall₂ Fades ss ts) : Fades (Text.concat ss) (Text.concat ts) := by
  induction h with
  | nil => exact codeless_empty.fades
  | cons hhere _ ih =>
      rw [Text.concat_cons, Text.concat_cons]
      exact hhere.append ih

/-- Lines that fade one by one make texts that fade. -/
theorem Fades.unlines (h : List.Forall₂ Fades ss ts) :
    Fades (Text.unlines ss) (Text.unlines ts) := by
  refine Fades.concat (List.forall₂_map_left_iff.mpr (List.forall₂_map_right_iff.mpr ?_))
  exact h.imp fun _ _ hline => hline.append (fades_ofList (by decide))

/-- **Paint** fades. -/
theorem Fades.paint (h : Fades s t) (c : Colour) : Fades (ansi.paint c s) (plain.paint c t) := by
  have hcode : ansi.code c ∈ codes := by cases c <;> decide
  have hreset : ansi.reset ∈ codes := by decide
  rw [paint_plain, Palette.paint]
  simpa using ((fades_code hcode).append h).append (fades_code hreset)

/-- Clearing the screen is no colour. -/
theorem fades_clearScreen : Fades Banner.clearScreen Banner.clearScreen := by
  have hclear (x : Char) (hx : x.isDigit = false) (rest : List Char) :
      eraseFrom 0 ('\x1b' :: '[' :: x :: rest) = '\x1b' :: eraseFrom 0 ('[' :: x :: rest) := by
    refine eraseFrom_cons fun code hcode hbegins => ?_
    obtain ⟨d, cs, rfl, hdigit⟩ := exists_digit_of_mem_codes hcode
    simp only [List.cons_prefix_cons, true_and] at hbegins
    rw [hbegins.1, hx] at hdigit
    cases hdigit
  -- Its two codes begin like those of colours, but go on with a letter.
  have htext : Banner.clearScreen.toList = ['\x1b', '[', 'H', '\x1b', '[', 'J'] :=
    String.toList_ofList
  intro rest
  rw [htext]
  simp only [List.cons_append, List.nil_append]
  rw [hclear 'H' (by decide), eraseFrom_cons_of_ne (by decide), eraseFrom_cons_of_ne (by decide),
    hclear 'J' (by decide), eraseFrom_cons_of_ne (by decide), eraseFrom_cons_of_ne (by decide)]

/-! ## what is shown -/

theorem fades_errorHeader : Fades ansi.errorHeader plain.errorHeader :=
  ((fades_ofList (by decide)).paint .red).append (fades_ofList (by decide))

namespace Report

variable {r : Report}

/-- The first line of a report fades if its text is codeless. -/
theorem fades_headline (h : SecdMachine.Codeless r.text) :
    Fades (r.headline ansi) (r.headline plain) :=
  (fades_errorHeader.append h.fades).append (fades_ofList (by decide))

/-- Values under a codeless heading are codeless, and so is what stands for none. -/
theorem codeless_valuesUnder {heading : String} (h : SecdMachine.Codeless heading)
    (vs : Option (List Value)) : SecdMachine.Codeless (valuesUnder heading vs) := by
  cases vs with
  | none => exact codeless_empty
  | some vs => exact codeless_append.mpr ⟨h, Value.codeless_describeLines vs⟩

theorem codeless_stackHeading : SecdMachine.Codeless stackHeading :=
  codeless_ofList (by decide)

theorem codeless_envHeading : SecdMachine.Codeless envHeading :=
  codeless_ofList (by decide)

/-- A codeless report fades when it is shown with its statement and its lists. -/
theorem fades_describe (h : r.Codeless) : Fades (r.describe ansi) (r.describe plain) := by
  have hinstruction : Fades
      (if r.instruction = "" then ""
        else "\n--- instruction\n" ++ ansi.paint .cyan r.instruction ++ "\n")
      (if r.instruction = "" then ""
        else "\n--- instruction\n" ++ plain.paint .cyan r.instruction ++ "\n") := by
    split
    · exact codeless_empty.fades
    · exact ((fades_ofList (by decide)).append (h.instruction.fades.paint .cyan)).append
        (fades_ofList (by decide))
  exact (((fades_headline h.text).append hinstruction).append
    (codeless_valuesUnder codeless_stackHeading r.stack).fades).append
      (codeless_valuesUnder codeless_envHeading r.env).fades

/-- A numbered list of reports fades if their texts are codeless. -/
theorem fades_listingFrom {rs : List Report} (h : ∀ r ∈ rs, SecdMachine.Codeless r.text) (i : Nat) :
    Fades (listingFrom ansi i rs) (listingFrom plain i rs) := by
  induction rs generalizing i with
  | nil => exact codeless_empty.fades
  | cons r rs ih =>
      rw [List.forall_mem_cons] at h
      have hnumber : SecdMachine.Codeless ("[" ++ Numeral.natural i ++ "] ") := by
        simp only [codeless_append, codeless_natural, and_true]
        exact ⟨codeless_ofList (by decide), codeless_ofList (by decide)⟩
      exact (hnumber.fades.append (fades_headline h.1)).append (ih h.2 (i + 1))

end Report

namespace State

variable {p : Program}

/-- A line of a listing is codeless if the statement in it is. -/
theorem codeless_listingLine (count current i : Nat) {st : Statement} (h : Codeless st.text) :
    Codeless (Program.listingLine count current i st) := by
  unfold Program.listingLine
  simp only [codeless_append, h, and_true]
  refine ⟨⟨⟨?_, codeless_padLeft _ (codeless_natural i)⟩, codeless_ofList (by decide)⟩, ?_⟩
  · split <;> exact codeless_ofList (by decide)
  · split
    · exact codeless_empty
    · exact codeless_ofList (by decide)

/-- The listing of a codeless program consists of codeless lines. -/
theorem codeless_of_mem_listing (hp : p.Codeless) {current : Nat} :
    ∀ line ∈ p.listing current, Codeless line := by
  intro line hline
  obtain ⟨i, hi, rfl⟩ := List.mem_mapIdx.mp hline
  exact codeless_listingLine _ _ _ (hp _ (List.getElem_mem hi)).1

/-- The listing fades: only the line of the current statement is painted. -/
theorem fades_describeProgram (hp : p.Codeless) (current : Nat) :
    Fades (describeProgram ansi p current) (describeProgram plain p current) := by
  refine Fades.unlines (List.forall₂_iff_get.mpr ⟨by simp, fun i hi _ => ?_⟩)
  rw [List.length_mapIdx] at hi
  have hline := codeless_of_mem_listing hp _ (List.getElem_mem hi)
  simp only [List.get_eq_getElem, List.getElem_mapIdx]
  split
  · exact hline.fades.paint .cyan
  · exact hline.fades

/-- A state fades when it is shown with its program. -/
theorem fades_describe (hp : p.Codeless) (s : State) :
    Fades (s.describe ansi p) (s.describe plain p) := by
  unfold describe
  split
  · exact ((fades_ofList (by decide)).paint .green).append
      (fades_ofList (by decide))
  · have hvalues := Value.codeless_describeLines
    refine Fades.append (Fades.append (Fades.append (Fades.append (Fades.append ?_
      (fades_describeProgram hp s.pc)) ?_) ?_) ?_) ?_
    · exact fades_ofList (by decide)
    · exact Report.codeless_stackHeading.fades
    · exact (hvalues s.stack).fades
    · exact Report.codeless_envHeading.fades
    · exact (hvalues s.env).fades

/-- The line of the result is codeless. -/
theorem codeless_describeResult (s : State) : Codeless s.describeResult :=
  codeless_append.mpr ⟨codeless_ofList (by decide), Value.codeless_describe _⟩

end State

/-! ## consoles -/

/-- The names that a command holds, if any, are codeless. -/
def Command.Codeless : Command → Prop
  | .unknown line => SecdMachine.Codeless line
  | .next | .previous | .changes | .run | .explain | .help | .quit => True

/-- A codeless line is a codeless command, also if no command has its name. -/
theorem Command.codeless_ofLine (h : SecdMachine.Codeless s) : (Command.ofLine s).Codeless := by
  have htrimmed : SecdMachine.Codeless (Text.trimString s) :=
    h.of_subset (Text.trim_isInfix s.toList).subset
  unfold ofLine
  split
  all_goals first | exact trivial | exact htrimmed

namespace Console

variable {t : Trace} {r : Report}

/-- A note of an error fades if its text is codeless. -/
theorem fades_errorNote (h : Codeless s) :
    Fades (ansi.errorHeader ++ s ++ "\n") (plain.errorHeader ++ s ++ "\n") :=
  (fades_errorHeader.append h.fades).append (fades_ofList (by decide))

/-- What is shown of a failure fades if the report is codeless. -/
theorem fades_describeFailure (h : r.Codeless) :
    Fades (describeFailure ansi r) (describeFailure plain r) := by
  unfold describeFailure
  split
  · exact Report.fades_headline h.text
  · exact Report.fades_describe h

/-- The note on the end of a run fades. -/
theorem fades_stopNote (ht : t.Valid) (hp : t.program.Codeless) :
    Fades (stopNote ansi t) (stopNote plain t) := by
  unfold stopNote
  cases herror : t.error with
  | some r => exact fades_describeFailure (ht.codeless hp herror)
  | none => exact ((fades_ofList (by decide)).paint .yellow).append (fades_ofList (by decide))

theorem codeless_bullet : Codeless Banner.bullet :=
  codeless_ofList (by decide)

/-- A note of changes is codeless if their lines are. -/
theorem codeless_changesNote {cs : List Json.Change} (h : ∀ c ∈ cs, Codeless c.text) :
    Codeless (changesNote t cs) := by
  have hlines : Codeless (Text.unlines (cs.map (Banner.bullet ++ ·.text))) := by
    refine codeless_unlines fun line hline => ?_
    obtain ⟨c, hc, rfl⟩ := List.mem_map.mp hline
    exact codeless_append.mpr ⟨codeless_bullet, h c hc⟩
  unfold changesNote
  simp only [codeless_append, codeless_natural, hlines, and_true]
  exact ⟨codeless_ofList (by decide), codeless_ofList (by decide)⟩

theorem codeless_helpText : Codeless helpText := by
  unfold helpText
  simp only [codeless_append, codeless_bullet, and_true]
  and_intros <;> exact codeless_ofList (by decide)

/-- **Remarks** of a command fade. -/
theorem fades_remarks (ht : t.Valid) (hp : t.program.Codeless) {cmd : Command}
    (hcmd : cmd.Codeless) : List.Forall₂ Fades (remarks ansi t cmd) (remarks plain t cmd) := by
  have hone {x y : String} (h : Fades x y) : List.Forall₂ Fades [x] [y] := .cons h .nil
  unfold remarks
  cases cmd with
  | next =>
      cases hnext : t.next with
      | mk u moved =>
          have hforward := forward_of_next hnext
          have hprogram : u.program = t.program := hforward.extends.program
          cases moved with
          | true => simp [perform, hnext]
          | false =>
              -- The error, if any, may have come up only now.
              have hstop := fades_stopNote (hforward.valid ht) (hprogram ▸ hp)
              simpa [perform, hnext, note] using hone hstop
  | previous =>
      cases hprev : t.prev with
      | mk u moved =>
          cases moved with
          | true => simp [perform, hprev]
          | false =>
              simpa [perform, hprev, noteError, note] using
                hone (fades_errorNote (codeless_ofList (by decide)))
  | changes =>
      simp only [perform]
      split
      · exact hone (fades_errorNote (codeless_ofList (by decide)))
      · cases hchanges : t.changes? t.cursor with
        | some cs =>
            exact hone (codeless_changesNote (Trace.codeless_change_of_mem hchanges)).fades
        | none =>
            have hmessage : Codeless (Trace.noStepMessage t.cursor) :=
              codeless_append.mpr ⟨codeless_ofList (by decide), codeless_decimal _⟩
            exact hone (fades_errorNote hmessage)
  | run =>
      have hvalid : t.run.Valid :=
        (Trace.completes_run t).induction (fun u hu => (Trace.forward_next u).valid hu) ht
      exact hone (fades_stopNote hvalid (by rwa [Trace.run_program]))
  | explain =>
      simp only [perform]
      cases herror : t.error with
      | some r =>
          have hwrapped := codeless_wrap 0 margin (ht.codeless hp herror).explanation
          exact hone (hwrapped.fades.append (fades_ofList (by decide)))
      | none => exact hone (fades_errorNote (codeless_ofList (by decide)))
  | help => exact hone codeless_helpText.fades
  | quit => exact .nil
  | unknown line =>
      have hmessage : Codeless ("unknown command " ++ Fault.emph line ++
          ", 'h' lists the commands.") := by
        simp only [codeless_append, codeless_emph]
        exact ⟨⟨codeless_ofList (by decide), hcmd⟩, codeless_ofList (by decide)⟩
      exact hone (fades_errorNote hmessage)

/-- **Blocks** that show a state fade. -/
theorem fades_stateBlock (hp : t.program.Codeless) :
    Fades (stateBlock ansi t) (stateBlock plain t) := by
  have htitle : Codeless ("\n" ++ Numeral.natural t.cursor ++ Banner.rule ++ "\n\n") := by
    simp only [codeless_append, codeless_natural, and_true]
    refine ⟨⟨?_, ?_⟩, ?_⟩ <;> exact codeless_ofList (by decide)
  exact htitle.fades.append (State.fades_describe hp t.current)

/-- **Endings** of runs fade. -/
theorem fades_ending (ht : t.Valid) (hp : t.program.Codeless) :
    Fades (ending ansi t) (ending plain t) := by
  have habort : Fades "Abort.\n" "Abort.\n" := fades_ofList (by decide)
  have hfailure : Fades ((t.error.map (describeFailure ansi)).getD "")
      ((t.error.map (describeFailure plain)).getD "") := by
    cases herror : t.error with
    | none => exact codeless_empty.fades
    | some r => exact fades_describeFailure (ht.codeless hp herror)
  unfold ending
  cases t.status with
  | halted => exact (State.codeless_describeResult t.last).fades.append (fades_ofList (by decide))
  | failed | aborted => exact hfailure.append habort
  | running => exact habort

/-- The loop of a batch goes the same way with and without colours, and its blocks
fade. -/
theorem fades_batchFor (ht : t.Valid) (hp : t.program.Codeless) (n : Nat) :
    ∃ u bs bs', batchFor ansi n t = (u, bs) ∧ batchFor plain n t = (u, bs') ∧
      List.Forall₂ Fades bs bs' ∧ u.Valid ∧ u.program = t.program := by
  -- Whether the loop goes on depends on the trace alone.
  induction n generalizing t with
  | zero => exact ⟨t, [], [], rfl, rfl, .nil, ht, rfl⟩
  | succ n ih =>
      have hblock := fades_stateBlock hp
      rw [batchFor, batchFor]
      cases hnext : t.next with
      | mk u moved =>
          have hforward := forward_of_next hnext
          have hvalid := hforward.valid ht
          have hprogram : u.program = t.program := hforward.extends.program
          cases moved with
          | false => exact ⟨u, _, _, rfl, rfl, .cons hblock .nil, hvalid, hprogram⟩
          | true =>
              cases hhalted : u.current.isHalted with
              | true =>
                  exact ⟨u, _, _, by simp [hhalted], by simp [hhalted], .cons hblock .nil, hvalid,
                    hprogram⟩
              | false =>
                  obtain ⟨v, bs, bs', hansi, hplain, hrest, hv, hsame⟩ :=
                    ih hvalid (hprogram ▸ hp)
                  exact ⟨v, _, _, by simp [hhalted, hansi], by simp [hhalted, hplain],
                    .cons hblock hrest, hv, hsame.trans hprogram⟩

/-! ## what is asked of a console -/

/-- What can be asked of a console. -/
inductive Request where
  | enter (line : String)
  | display
  | batch
  | finish
  | prompt
deriving DecidableEq, Repr

/-- What a console replies: what it writes, whether it was to quit, how the run has
ended if that is told, and the trace it has then. -/
structure Reply where
  output : String := ""
  quit : Bool := false
  outcome : Option Trace.Outcome := none
  trace : Trace
deriving DecidableEq, Repr

/-- The console after a request, and its reply. -/
def respond (c : Console) : Request → Console × Reply
  | .enter line =>
    let (d, quit) := c.enter line
    (d, { quit := quit, trace := d.trace })
  | .display => (c.shown, { output := c.display, trace := c.trace })
  | .batch =>
    let (d, output) := c.batch
    (d, { output := output, outcome := some d.trace.outcome, trace := d.trace })
  | .finish =>
    (c, {
      output := ending c.palette c.trace
      outcome := some c.trace.outcome
      trace := c.trace })
  | .prompt => (c, { output := c.prompt, trace := c.trace })

/-- The replies to requests that are made one after the other. -/
def replies (c : Console) : List Request → List Reply
  | [] => []
  | q :: qs => (c.respond q).2 :: (c.respond q).1.replies qs

/-- The line that is entered, if any, is codeless. -/
def Request.Codeless : Request → Prop
  | .enter line => SecdMachine.Codeless line
  | .display | .batch | .finish | .prompt => True

/-- The reply without the codes of colours. -/
def Reply.faded (r : Reply) : Reply :=
  { r with output := erase r.output }

/-- `Twins c d`: the console `c` has colours and `d` has none, but they stand at the
same place of the same run, and what they have to say fades. -/
structure Twins (c d : Console) : Prop where
  ansi : c.palette = .ansi
  plain : d.palette = .plain
  clearScreen : d.clearScreen = c.clearScreen
  trace : d.trace = c.trace
  notes : List.Forall₂ Fades c.notes d.notes
  valid : c.trace.Valid
  codeless : c.trace.program.Codeless

variable {c d : Console}

/-- Two consoles started on one program, with colours and without, are twins. -/
theorem twins_start {program : Program} (h : program.Codeless) (clearScreen : Bool)
    (budget : Int) : Twins (start .ansi clearScreen program budget)
      (start .plain clearScreen program budget) where
  ansi := rfl
  plain := rfl
  clearScreen := rfl
  trace := rfl
  notes := .nil
  valid := Trace.valid_start program budget
  codeless := h

namespace Twins

/-- **Step case**: one line given to two twins leaves twins. -/
theorem enter (h : Twins c d) {line : String} (hline : Codeless line) :
    Twins (c.enter line).1 (d.enter line).1 := by
  have hvalid : (c.trace.moves (move? line).toList).Valid :=
    Trace.moves_induction (fun t ht => (Trace.forward_next t).valid ht)
      (fun _ ht => Trace.valid_prev ht) _ h.valid
  have hremarks := fades_remarks h.valid h.codeless (Command.codeless_ofLine hline)
  rw [enter_eq, enter_eq]
  exact {
    ansi := h.ansi
    plain := h.plain
    clearScreen := h.clearScreen
    trace := by rw [h.trace]
    notes := by
      rw [h.ansi, h.plain, h.trace]
      exact List.rel_append h.notes hremarks
    valid := hvalid
    codeless := by simpa using h.codeless }

/-- Twins stay twins when what they have to say has been shown. -/
theorem shown (h : Twins c d) : Twins c.shown d.shown :=
  { h with notes := .nil }

/-- What twins display fades. -/
theorem fades_display (h : Twins c d) : Fades c.display d.display := by
  unfold display
  rw [h.ansi, h.plain, h.clearScreen, h.trace]
  refine Fades.append (Fades.append (Fades.append ?_ (fades_stateBlock h.codeless)) ?_)
    (Fades.concat h.notes)
  · split
    · exact fades_clearScreen
    · exact codeless_empty.fades
  · split
    · exact (State.codeless_describeResult _).fades.append (fades_ofList (by decide))
    · exact codeless_empty.fades

/-- The prompt of twins fades. -/
theorem fades_prompt (h : Twins c d) : Fades c.prompt d.prompt := by
  have htext (i n : Nat) : Codeless
      ("step " ++ Numeral.natural i ++ "/" ++ Numeral.natural n ++ " " ++ Banner.arrow) := by
    simp only [codeless_append, codeless_natural, and_true]
    and_intros <;> exact codeless_ofList (by decide)
  unfold prompt
  rw [h.ansi, h.plain, h.trace]
  cases c.trace.status with
  | failed | aborted => exact (htext _ _).fades.paint .red
  | halted => exact (htext _ _).fades.paint .green
  | running => exact (htext _ _).fades

/-- Twins stay twins when they run to the end, and what they print fades. -/
theorem batch (h : Twins c d) :
    Twins c.batch.1 d.batch.1 ∧ Fades c.batch.2 d.batch.2 := by
  obtain ⟨u, bs, bs', hansi, hplain, hblocks, hvalid, hprogram⟩ :=
    fades_batchFor h.valid h.codeless (c.trace.remaining + 1)
  have hcodeless : u.program.Codeless := hprogram ▸ h.codeless
  unfold Console.batch
  rw [h.ansi, h.plain, h.trace, hansi, hplain]
  refine ⟨?_, (Fades.concat hblocks).append (fades_ending hvalid hcodeless)⟩
  exact {
    ansi := rfl
    plain := rfl
    clearScreen := h.clearScreen
    trace := rfl
    notes := h.notes
    valid := hvalid
    codeless := hcodeless }

/-- **Step case**: a request leaves twins, and their replies are the same but for
colour. -/
theorem respond (h : Twins c d) {q : Request} (hq : q.Codeless) :
    Twins (c.respond q).1 (d.respond q).1 ∧
      (c.respond q).2.faded = (d.respond q).2 := by
  cases q with
  | enter line =>
      have hentered := h.enter hq
      have hquit : (d.enter line).2 = (c.enter line).2 := rfl
      refine ⟨hentered, ?_⟩
      simp [Console.respond, Reply.faded, codeless_empty.fades.erase, hentered.trace, hquit]
  | display =>
      refine ⟨h.shown, ?_⟩
      simp [Console.respond, Reply.faded, h.fades_display.erase, h.trace]
  | batch =>
      obtain ⟨htwins, hfades⟩ := h.batch
      refine ⟨htwins, ?_⟩
      simp [Console.respond, Reply.faded, hfades.erase, htwins.trace]
  | finish =>
      have hfades := fades_ending h.valid h.codeless
      refine ⟨h, ?_⟩
      simp [Console.respond, Reply.faded, h.ansi, h.plain, h.trace, hfades.erase]
  | prompt => exact ⟨h, by simp [Console.respond, Reply.faded, h.fades_prompt.erase, h.trace]⟩

/-- **Run case**: so do all replies to a session. -/
theorem replies (h : Twins c d) {qs : List Request} (hqs : ∀ q ∈ qs, q.Codeless) :
    (c.replies qs).map Reply.faded = d.replies qs := by
  induction qs generalizing c d with
  | nil => rfl
  | cons q qs ih =>
      rw [List.forall_mem_cons] at hqs
      obtain ⟨htwins, hreply⟩ := h.respond hqs.1
      rw [Console.replies, Console.replies, List.map_cons, hreply, ih htwins hqs.2]

end Twins

end Console

/-- **Colour** changes nothing but colour: a program from a source with a codeless
name, run with any budget, gets the same replies from a console with colours as from
one without, once the codes of colours are deleted from what they write; traces,
outcomes and answers to quit are the same as they are.  If the text is no program,
the list of what is wrong with it is the same but for colour, too. -/
theorem colour_only {source : String} (hsource : Codeless source) (text : String) :
    (∀ program, Program.assemble source text = .ok program →
      ∀ (clearScreen : Bool) (budget : Int) (qs : List Console.Request),
        (∀ q ∈ qs, q.Codeless) →
        ((Console.start .ansi clearScreen program budget).replies qs).map Console.Reply.faded =
          (Console.start .plain clearScreen program budget).replies qs) ∧
    ∀ reports, Program.assemble source text = .error reports →
      erase (Report.listing .ansi reports) = Report.listing .plain reports := by
  refine ⟨fun program hprogram clearScreen budget qs hqs => ?_, fun reports hreports => ?_⟩
  · have hcodeless := Program.codeless_of_assemble hsource hprogram
    exact (Console.twins_start hcodeless clearScreen budget).replies hqs
  · exact (Report.fades_listingFrom (Assembly.codeless_text_of_mem hsource hreports) 0).erase

/-- A session over `twoCalls` with a budget of one step: both consoles prompt, run to
the end, and prompt again, but only one of them does so in red.  Where the text has an
illegal character, only the word in front of the report is painted, even though this
character is the one that codes begin with. -/
theorem colour_only_twoCalls :
    ((Console.start .ansi false .twoCalls 1).replies
        [.prompt, .enter "r", .display, .prompt, .finish]).map Console.Reply.faded =
      (Console.start .plain false .twoCalls 1).replies
        [.prompt, .enter "r", .display, .prompt, .finish] ∧
    ((Console.start .ansi false .twoCalls 1).enter "r").1.prompt =
      "\x1b[31mstep 1/1 → \x1b[0m" ∧
    ((Console.start .plain false .twoCalls 1).enter "r").1.prompt = "step 1/1 → " ∧
    ∃ reports, Program.assemble "test" "main:; \x1b" = .error reports ∧
      Report.listing .ansi reports =
        "[0] \x1b[31mError\x1b[0m: invalid character '\\x1b' at line 1 of 'test'.\n" ∧
      erase (Report.listing .ansi reports) = Report.listing .plain reports := by
  have hsource : Codeless "test" := codeless_ofList (by decide)
  have hqs : ∀ q ∈ [.prompt, .enter "r", .display, .prompt, .finish],
      Console.Request.Codeless q := by
    simp only [List.forall_mem_cons, Console.Request.Codeless]
    exact ⟨trivial, codeless_ofList (by decide), trivial, trivial, trivial,
      List.forall_mem_nil _⟩
  have hsession := (colour_only hsource Program.twoCallsText).1 .twoCalls
    Program.assemble_twoCallsText false 1 _ hqs
  have hlisting : Report.listing .ansi (Assembly.errorsOf (Program.assemble "test" "main:; \x1b")) =
      "[0] \x1b[31mError\x1b[0m: invalid character '\\x1b' at line 1 of 'test'.\n" := by
    decide +kernel
  refine ⟨hsession, by decide +kernel, by decide +kernel, ?_⟩
  cases hload : Program.assemble "test" "main:; \x1b" with
  | error reports =>
      rw [hload] at hlisting
      exact ⟨reports, rfl, hlisting, (colour_only hsource _).2 reports hload⟩
  | ok p =>
      have hempty : Report.listing .ansi [] ≠
          "[0] \x1b[31mError\x1b[0m: invalid character '\\x1b' at line 1 of 'test'.\n" := by
        decide +kernel
      rw [hload] at hlisting
      exact absurd hlisting hempty

end SecdMachine
