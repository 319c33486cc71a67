import SecdMachine.Proofs.Changes
import SecdMachine.Proofs.Correspondence

/-!
# SecdMachine.Proofs.Visibility

Every step is visible.

A step goes on to another location, or it changes how many values are on the
stack, or it halts (`State.VisiblyTo`): a jump or a call goes to a label line,
and what jumps or calls is no label, while a return, which may come back to
itself, leaves a shorter stack (`visiblyTo_of_step`).  Each of the three shows
in the documents of the two states, also when their numbers are read as doubles,
since locations are small enough to be read as they are
(`VisiblyTo.read_document_ne`).  So there is always something to tell of a step
(`Trace.steps_visible`).
-/

namespace SecdMachine

namespace State

variable {s t : State}

/-- `s.VisiblyTo t`: a step from `s` to `t` can be seen from the program counter,
the length of the stack, or the result. -/
inductive VisiblyTo (s t : State) : Prop where
  | pc (h : t.pc ≠ s.pc)
  | stack (h : t.stack.length ≠ s.stack.length)
  | halted {v : Value} (hs : s.result = none) (ht : t.result = some v)

theorem VisiblyTo.ne (h : s.VisiblyTo t) : t ≠ s := by
  rintro rfl
  cases h with
  | pc h => exact h rfl
  | stack h => exact h rfl
  | halted hs ht =>
      rw [hs] at ht
      cases ht

/-! ## documents -/

theorem mapNumbers_listDocument (f : Int → Int) (vs : List Value) :
    (Value.listDocument vs).mapNumbers f =
      .array (vs.reverse.map fun v => v.document.mapNumbers f) := by
  rw [Value.listDocument, Json.mapNumbers, Json.mapNumbersItems_eq_map, List.map_map]
  rfl

/-- What the documents of two states have in common if they are the same once
their numbers are read. -/
theorem of_mapNumbers_document {f : Int → Int}
    (h : s.document.mapNumbers f = t.document.mapNumbers f) :
    f s.pc = f t.pc ∧ s.stack.length = t.stack.length ∧ s.isHalted = t.isHalted := by
  have hlength {vs ws : List Value}
      (hlist : vs.reverse.map (fun v => v.document.mapNumbers f) =
        ws.reverse.map fun v => v.document.mapNumbers f) : vs.length = ws.length := by
    simpa using congrArg List.length hlist
  unfold document at h
  cases hs : s.result with
  | none =>
      cases ht : t.result with
      | none =>
          simp only [hs, ht, Json.mapNumbers, Json.mapNumbersFields, mapNumbers_listDocument,
            Json.object.injEq, List.cons.injEq, Prod.mk.injEq, Json.number.injEq,
            Json.array.injEq] at h
          exact ⟨h.2.1.2, hlength h.2.2.1.2, by simp [isHalted, hs, ht]⟩
      | some w => simp [hs, ht, Json.mapNumbers, Json.mapNumbersFields] at h
  | some v =>
      cases ht : t.result with
      | none => simp [hs, ht, Json.mapNumbers, Json.mapNumbersFields] at h
      | some w =>
          simp only [hs, ht, Json.mapNumbers, Json.mapNumbersFields, mapNumbers_listDocument,
            Json.object.injEq, List.cons.injEq, Prod.mk.injEq, Json.number.injEq,
            Json.array.injEq] at h
          exact ⟨h.2.2.1.2, hlength h.2.2.2.2.1.2, by simp [isHalted, hs, ht]⟩

/-- A visible step shows in the documents of the states, also with their numbers
read as doubles. -/
theorem VisiblyTo.read_document_ne (h : s.VisiblyTo t) (hs : s.pc ≤ Nat.pow 2 53)
    (ht : t.pc ≤ Nat.pow 2 53) :
    s.document.mapNumbers Double.read ≠ t.document.mapNumbers Double.read := by
  intro heq
  obtain ⟨hpc, hlength, hhalted⟩ := of_mapNumbers_document heq
  cases h with
  | pc h =>
      rw [Double.read_of_le (n := s.pc) hs, Double.read_of_le (n := t.pc) ht] at hpc
      exact h (Int.ofNat.inj hpc.symm)
  | stack h => exact h hlength.symm
  | halted hs ht => simp [isHalted, hs, ht] at hhalted

end State

/-- Between documents that differ there is something to change. -/
theorem Json.changes_ne_nil {a b : Json} (ha : (a.mapNumbers Double.read).Regular)
    (hb : (b.mapNumbers Double.read).Regular)
    (hne : a.mapNumbers Double.read ≠ b.mapNumbers Double.read) : changes a b ≠ [] := by
  intro hnil
  have hturns : Turns (changes a b) (a.mapNumbers Double.read) (b.mapNumbers Double.read) :=
    turns_diff ha hb
  rw [hnil] at hturns
  generalize a.mapNumbers Double.read = x, b.mapNumbers Double.read = y at hturns hne
  cases hturns with
  | nil => exact hne rfl

/-! ## steps -/

/-- A label line is none of the operations that go to one. -/
theorem Assembly.Assembles.ne_of_isLabel {ss : List Statement} {p : Program} (h : Assembles ss p)
    {location i : Nat} {op : Operation} (hl : p.IsLabel location) (hop : p.code[i]? = some op)
    (hne : op ≠ .label) : location ≠ i := by
  rintro rfl
  obtain ⟨s, hs, hkind⟩ := hl
  rw [h.statements] at hs
  rw [h.code_of_label hs hkind] at hop
  exact hne (Option.some.inj hop).symm

namespace Program

variable {p : Program} {s t : State}

/-- **Step case**: every step of an assembled program is visible. -/
theorem visiblyTo_of_step {ss : List Statement} (hp : Assembly.Assembles ss p)
    (hs : s.WellFormed p) (h : p.step s = .ok t) : s.VisiblyTo t := by
  obtain ⟨hrunning, op, hop, hexec⟩ := step_eq_ok_iff.mp h
  have hresolved := hp.wellFormed.resolved_at hop
  cases hexec with
  | label | const | access | closure | closures | focus | arith | eq | brflTrue =>
      exact .pc (Nat.succ_ne_self s.pc)
  | @call op _ u arg fn rest hstack hu =>
      have hfn : fn.WellFormed p := wellFormed_of_mem_stack hs (by simp [hstack])
      obtain ⟨entry, env, rfl, rfl, rfl⟩ | ⟨index, entries, env, entry, rfl, rfl, hentry, rfl⟩ :=
        Operation.callee?_eq_some_iff.mp hu
      · exact .pc (hp.ne_of_isLabel hfn hop nofun)
      · exact .pc (hp.ne_of_isLabel (hfn.2 entry (mem_of_entryAt? hentry)) hop nofun)
  | ret hstack =>
      -- The return address may be this very line; the frame of the call is gone.
      refine .stack ?_
      simp only [hstack, List.length_cons]
      omega
  | brflFalse target hstack => exact .pc (hp.ne_of_isLabel hresolved hop nofun)
  | br target => exact .pc (hp.ne_of_isLabel hresolved hop nofun)
  | halt hstack => exact .halted (by simpa [State.isHalted] using hrunning) rfl

end Program

namespace Trace

/-- Neighbours in the history of a trace are a step apart. -/
theorem Valid.step_at? {t : Trace} (h : t.Valid) {i : Int} {before after : State} (hpos : 1 ≤ i)
    (hbefore : t.at? (i - 1) = some before) (hafter : t.at? i = some after) :
    t.program.Reachable before ∧ t.program.step before = .ok after := by
  have hindex : i.toNat = (i - 1).toNat + 1 := by omega
  rw [at?, if_neg (by omega)] at hbefore hafter
  rw [hindex] at hafter
  exact ⟨⟨_, h.reached _ _ hbefore⟩, h.step hbefore hafter⟩

/-- **Every step is visible**: the step into each state of a history but the first
has changed the program counter or the length of the stack, or it has halted.
This shows in the documents of the two states with their numbers read as doubles,
and the changes that are told of the step are not none.  No step comes back to
the state it starts from. -/
theorem steps_visible {source text : String} {p : Program}
    (hp : Program.assemble source text = .ok p)
    (hlength : (Statement.read source text).length < Nat.pow 2 32) :
    (∀ (budget : Int) (ms : List Move) (i : Int), 1 ≤ i →
      i < ((start p budget).moves ms).size →
      ∃ before after cs, ((start p budget).moves ms).at? (i - 1) = some before ∧
        ((start p budget).moves ms).at? i = some after ∧
        ((start p budget).moves ms).changes? i = some cs ∧ cs ≠ [] ∧
        before.VisiblyTo after ∧
        Json.readDoubles? before.document.compact ≠ Json.readDoubles? after.document.compact) ∧
    ∀ s, p.Reachable s → p.step s ≠ .ok s := by
  have hassembles := Assembly.assembles_of_ofStatements hp
  have hwf := hassembles.wellFormed
  have hvisibly {s t : State} (hs : p.Reachable s) (h : p.step s = .ok t) : s.VisiblyTo t :=
    Program.visiblyTo_of_step hassembles (Program.wellFormed_of_reachable hwf hs) h
  refine ⟨fun budget ms i hpos hlt => ?_, fun s hs h => (hvisibly hs h).ne rfl⟩
  have hvalid := valid_moves p budget ms
  have hprogram : ((start p budget).moves ms).program = p := moves_program _ _
  generalize (start p budget).moves ms = t at hvalid hprogram hlt ⊢
  obtain ⟨before, hbefore⟩ := exists_at? (t := t) (i := i - 1) (by omega) (by omega)
  obtain ⟨after, hafter⟩ := exists_at? (t := t) (i := i) (by omega) hlt
  obtain ⟨hreached, hstep⟩ := hvalid.step_at? hpos hbefore hafter
  rw [hprogram] at hreached hstep
  have hvisible := hvisibly hreached hstep
  have hsmall {s : State} (hs : p.Reachable s) : s.pc ≤ Nat.pow 2 53 := by
    have hle := (Program.wellFormed_of_reachable hwf hs).pc_le
    rw [Program.size, hassembles.wellFormed.length_code, hassembles.statements] at hle
    simp only [Nat.pow_eq, Nat.reducePow] at hlength ⊢
    omega
  have hne := hvisible.read_document_ne (hsmall hreached) (hsmall (hreached.step hstep))
  refine ⟨before, after, _, hbefore, hafter, changes?_of_at? (by omega) hbefore hafter,
    Json.changes_ne_nil before.regular_document after.regular_document hne, hvisible, ?_⟩
  rw [Json.readDoubles?_compact, Json.readDoubles?_compact]
  exact mt Option.some.inj hne

/-- In the history of `twoCalls`, the return from the first call is visible. -/
theorem steps_visible_twoCalls :
    ∃ before after cs, ((start .twoCalls 100).moves [.run, .prev]).at? 10 = some before ∧
      ((start .twoCalls 100).moves [.run, .prev]).at? 11 = some after ∧
      ((start .twoCalls 100).moves [.run, .prev]).changes? 11 = some cs ∧ cs ≠ [] ∧
      before.VisiblyTo after ∧
      Program.twoCalls.step Program.twoCalls.initial ≠ .ok Program.twoCalls.initial := by
  have hlength : (Statement.read "test" Program.twoCallsText).length < Nat.pow 2 32 := by
    decide +kernel
  have hlt : (11 : Int) < ((start .twoCalls 100).moves [.run, .prev]).size := by decide +kernel
  obtain ⟨hsteps, hself⟩ := steps_visible Program.assemble_twoCallsText hlength
  obtain ⟨before, after, cs, hbefore, hafter, hcs, hne, hvisible, _⟩ :=
    hsteps 100 [.run, .prev] 11 (by decide) hlt
  exact ⟨before, after, cs, hbefore, hafter, hcs, hne, hvisible, hself _ ⟨0, rfl⟩⟩

end Trace

end SecdMachine
