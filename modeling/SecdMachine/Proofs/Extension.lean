import SecdMachine.Proofs.Relocation
import SecdMachine.Proofs.Safety

/-!
# SecdMachine.Proofs.Extension

Code behind a program does not change what the program does.

The statements of a text stay as they are when lines follow it (`read_append`),
and so do the locations of its labels and the indices of its constants: its
operations, constants and statements stand in front of those of the longer
program (`Assembles.extends`).  A step finds the same operation in both, and
the same constants, as long as the program counter is in the shorter one
(`Extends.step_eq`).  So the runs of the two are the same until the shorter
program is left at its end (`extension_preserves_run`).
-/

namespace SecdMachine

/-! ## longer texts -/

theorem Text.lines_append (a b : String) :
    lines (a ++ "\n" ++ b).toList = lines a.toList ++ lines b.toList := by
  simp only [lines, String.toList_append, String.reduceToList, List.append_assoc,
    List.singleton_append]
  exact splitWhere_append rfl a.toList b.toList

/-- The lines that follow a text are read behind it. -/
theorem Statement.read_append (source a b : String) :
    read source (a ++ "\n" ++ b) =
      read source a ++
        ofLines source (1 + (Text.lines a.toList).length) (Text.lines b.toList) := by
  rw [read, Text.lines_append, ofLines_append, read]

namespace Program

variable {p p' : Program} {s t : State} {n : Nat} {f : Fault}

/-! ## longer programs -/

/-- `Extends p p'`: the program `p'` begins with `p`. -/
structure Extends (p p' : Program) : Prop where
  code : p.code <+: p'.code
  constants : p.constants <+: p'.constants
  statements : p.statements <+: p'.statements
  main : p'.main = p.main

end Program

/-- More statements make a longer program. -/
theorem Assembly.Assembles.extends {ss rest : List Statement} {p p' : Program}
    (h : Assembles ss p) (h' : Assembles (ss ++ rest) p') : p.Extends p' := by
  have hplaces : ∀ (i : Nat) (s : Statement), ss[i]? = some s →
      ∃ s', (ss ++ rest)[id i]? = some s' ∧ s.Matches s' := by
    intro i s hs
    have hi := (List.getElem?_eq_some_iff.mp hs).1
    exact ⟨s, (List.getElem?_append_left hi).trans hs, .refl s⟩
  have hl := relocates_labelEntries h'.nodup hplaces
  have hss : List.Forall₂ Statement.Matches ss ss := List.forall₂_same.mpr fun s _ => .refl s
  have hyields := h.yields_labelEntries.relocate hss hl
  obtain ⟨c, c', k, k', hcode, hconstants, hfront, _⟩ :=
    yields_append_iff.mp h'.yields_labelEntries
  obtain ⟨l, hmain, hlocation⟩ := h.findLabel?_main
  obtain ⟨l', hmain', hlocation'⟩ := hl _ _ hmain
  obtain ⟨m, hm, hm'⟩ := h'.findLabel?_main
  rw [hmain', Option.some.injEq] at hm
  refine ⟨?_, ?_, ?_, ?_⟩
  · rw [hcode, hyields.code_eq hfront, funext Operation.relocate_id, List.map_id']
    exact List.prefix_append _ _
  · rw [hconstants, hfront.constants_eq, ← h.yields.constants_eq]
    exact List.prefix_append _ _
  · rw [h.statements, h'.statements]
    exact List.prefix_append _ _
  · rw [hm', ← hm, hlocation, hlocation']
    rfl

namespace Program

variable {p p' : Program} {s t : State} {n : Nat} {f : Fault}

/-! ## steps -/

theorem getElem?_of_front {α : Type} {xs ys : List α} (h : xs <+: ys) {i : Nat}
    (hi : i < xs.length) : ys[i]? = xs[i]? := by
  obtain ⟨rest, rfl⟩ := h
  exact List.getElem?_append_left hi

/-- An operation does the same with more constants. -/
theorem execute_of_more_constants {op : Operation} {labelled : Nat → Prop}
    {constants constants' : List Value} (hop : op.Resolved labelled constants.length)
    (h : constants <+: constants') (s : State) :
    op.execute constants' s = op.execute constants s := by
  cases op with
  | const index =>
      have hindex : constants'[index]? = constants[index]? := getElem?_of_front h hop
      simp only [Operation.execute, hindex]
  | label | access | closure | closures | focus | apply | applyn | ret | arith | eq | brfl | br
  | halt | unknown => rfl

/-- **Step case**: a step inside the shorter program is a step of the longer
one. -/
theorem Extends.step_eq (h : p.Extends p') (hp : p.WellFormed) (hpc : s.pc < p.size) :
    p'.step s = p.step s := by
  have hcode : p'.code[s.pc]? = p.code[s.pc]? := getElem?_of_front h.code hpc
  unfold step
  rw [hcode]
  cases hop : p.code[s.pc]? with
  | none => rfl
  | some op => simp only [execute_of_more_constants (hp.resolved_at hop) h.constants]

/-- **Run case**: the states of the shorter program are states of the longer
one. -/
theorem Extends.after (h : p.Extends p') (hp : p.WellFormed)
    (hs : p.after n p.initial = .ok s) : p'.after n p'.initial = .ok s := by
  induction n generalizing s with
  | zero =>
      cases hs
      simp only [after_zero, initial, h.main]
  | succ n ih =>
      obtain ⟨t, ht, hstep⟩ := after_succ_eq_ok_iff.mp hs
      obtain ⟨_, op, hop, _⟩ := step_eq_ok_iff.mp hstep
      rw [after_succ (ih ht), h.step_eq hp (lt_size_of_getElem? hop), hstep]

theorem Extends.report_eq (h : p.Extends p') (hp : p.WellFormed) (hpc : s.pc < p.size) :
    p'.report s f = p.report s f := by
  have hlt : s.pc < p.statements.length := hp.length_code ▸ hpc
  have hstatement : p'.statements[s.pc]? = p.statements[s.pc]? :=
    getElem?_of_front h.statements hlt
  simp only [report, statementAt, hstatement]

/-- **Extension**: if a text is accepted, and still is with lines behind it, then
every state that a run of the shorter program goes through is that of the longer
one after as many steps.  Where the shorter program fails, unless it is because
its end is left, the longer fails with the same report: the same fault and
statement, and the same stack and environment. -/
theorem extension_preserves_run {source a b : String} (hp : assemble source a = .ok p)
    (hp' : assemble source (a ++ "\n" ++ b) = .ok p') (n : Nat) :
    (∀ s, p.after n p.initial = .ok s → p'.after n p'.initial = .ok s) ∧
    ∀ s f, p.after n p.initial = .ok s → p.step s = .error (.fault f) → f.id ≠ "vm/pc" →
      p'.after n p'.initial = .ok s ∧ p'.step s = .error (.fault f) ∧
        p'.report s f = p.report s f := by
  have hwf := wellFormed_of_assemble hp
  have hlonger := Assembly.assembles_of_ofStatements hp'
  rw [Statement.read_append] at hlonger
  have hextends := (Assembly.assembles_of_ofStatements hp).extends hlonger
  refine ⟨fun s hs => hextends.after hwf hs, fun s f hs hstep hid => ?_⟩
  have hpc : s.pc < p.size := by
    refine pc_lt_of_fault ⟨n, hs⟩ hstep fun m hm => hid ?_
    rw [hm]
    rfl
  exact ⟨hextends.after hwf hs, by rw [hextends.step_eq hwf hpc, hstep],
    hextends.report_eq hwf hpc⟩

/-- With another function behind it, `twoCalls` halts as before, and is then as
before at its `halt`. -/
theorem extension_preserves_run_twoCalls :
    ∃ p' s, assemble "test" (twoCallsText ++ "\n" ++ "g:; const 1; return") = .ok p' ∧
      s.result = some (.int 9) ∧ twoCalls.after 17 twoCalls.initial = .ok s ∧
      p'.after 17 p'.initial = .ok s ∧
      p'.report s .alreadyHalted = twoCalls.report s .alreadyHalted := by
  have hsome : (assemble "test" (twoCallsText ++ "\n" ++ "g:; const 1; return")).toOption.isSome =
      true := by
    decide +kernel
  cases hp' : assemble "test" (twoCallsText ++ "\n" ++ "g:; const 1; return") with
  | error reports => rw [hp'] at hsome; cases hsome
  | ok p' =>
      have h := (extension_preserves_run assemble_twoCallsText hp' 17).2 _ _ rfl rfl (by decide)
      exact ⟨p', _, rfl, rfl, rfl, h.1, h.2.2⟩

end Program

end SecdMachine
