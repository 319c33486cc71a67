import SecdMachine.Proofs.Contents
import SecdMachine.Proofs.Layout

/-!
# SecdMachine.Proofs.Safety

Safety of whole runs: in every state that an assembled program reaches, the
program counter is in the program or just behind it, and every value, at any
depth, is one that the machine can use (`Value.WellFormed`).  Functions point
to label lines, selected functions exist, and return addresses follow a call.

It follows that a step of such a state is never stuck on a malformed
operation or value: it leads on, or it stops with a fault of the program that
is run.
-/

namespace SecdMachine

/-- Nothing is nested in a literal. -/
theorem Value.IsLiteral.everywhere {P : Value → Prop} {v : Value} (h : v.IsLiteral) (hv : P v) :
    v.Everywhere P := by
  cases v with
  | int | bool => exact Value.everywhere_of_environment_eq_nil hv rfl
  | closure | frame | focused | returnAddress | savedEnv | undefined | unknown => exact h.elim

/-! ## the invariant -/

/-- What a value must be for the machine to use it safely, apart from the
values nested in it. -/
def Value.WellFormed (p : Program) : Value → Prop
  | .int n => Numeral.fits n = true
  | .bool _ => True
  | .closure entry _ => p.IsLabel entry
  | .frame entries _ => ∀ entry ∈ entries, p.IsLabel entry
  | .focused index entries _ =>
    (1 ≤ index ∧ index ≤ entries.length) ∧ ∀ entry ∈ entries, p.IsLabel entry
  | .returnAddress location =>
    (1 ≤ location ∧ location ≤ p.size) ∧
      (p.code[location - 1]? = some .apply ∨ p.code[location - 1]? = some .applyn)
  | .savedEnv _ => True
  | .undefined | .unknown => False

/-- The states that a run of a well-formed program stays in. -/
structure State.WellFormed (p : Program) (s : State) : Prop where
  pc_le : s.pc ≤ p.size
  values : s.Everywhere (Value.WellFormed p)

namespace Program

variable {p : Program} {s t : State} {v : Value} {op : Operation}

/-- A literal is safe to use. -/
theorem wellFormed_of_isLiteral (h : v.IsLiteral) : v.WellFormed p := by
  cases v with
  | int n => exact h
  | bool b => trivial
  | closure | frame | focused | returnAddress | savedEnv | undefined | unknown => exact h.elim

/-- A running state is at an operation with its arguments in order. -/
theorem WellFormed.resolved_at (hp : p.WellFormed) (hop : p.code[s.pc]? = some op) :
    op.Resolved p.IsLabel p.constants.length :=
  hp.resolved op (List.mem_of_getElem? hop)

theorem lt_size_of_getElem? {i : Nat} (hop : p.code[i]? = some op) : i < p.size :=
  (List.getElem?_eq_some_iff.mp hop).1

/-- The values on the stack of a well-formed state are well formed. -/
theorem wellFormed_of_mem_stack (hs : s.WellFormed p) (hv : v ∈ s.stack) : v.WellFormed p :=
  (hs.values v (State.mem_contents_of_mem_stack hv)).self

/-- Every value that a step makes is well formed. -/
theorem Makes.wellFormed (hp : p.WellFormed) (hs : s.WellFormed p) (h : p.Makes s v) :
    v.WellFormed p := by
  cases h with
  | closure hop => exact hp.resolved_at hop
  | frame hop => exact hp.resolved_at hop
  | @focused index entries env hop hframe hindex =>
      have hpos : 0 < index := hp.resolved_at hop
      have hentries : ∀ entry ∈ entries, p.IsLabel entry := wellFormed_of_mem_stack hs hframe
      exact ⟨⟨by omega, by omega⟩, hentries⟩
  | @self index entries env hfn =>
      have hfocused : Value.WellFormed p (.focused index entries env) :=
        wellFormed_of_mem_stack hs hfn
      exact hfocused.2
  | savedEnv => trivial
  | @returnAddress op hop hcall =>
      have hlt : s.pc < p.size := lt_size_of_getElem? hop
      refine ⟨⟨by omega, hlt⟩, ?_⟩
      rw [Nat.add_sub_cancel, hop]
      obtain rfl | rfl := Operation.isCall_iff.mp hcall
      · exact .inl rfl
      · exact .inr rfl
  | int hfits => exact hfits
  | bool b => trivial

/-- A selected entry of a frame is one of its entries. -/
theorem mem_of_entryAt? {entries : List Nat} {index : Int} {entry : Nat}
    (h : entryAt? entries index = some entry) : entry ∈ entries := by
  unfold entryAt? at h
  split at h
  · cases h
  · exact List.mem_of_getElem? h

/-- A step goes to the next operation, to a label line, or to where a call
came from. -/
theorem pc_le_of_step (hp : p.WellFormed) (hs : s.WellFormed p) (h : p.step s = .ok t) :
    t.pc ≤ p.size := by
  obtain ⟨_, op, hop, hexec⟩ := step_eq_ok_iff.mp h
  have hnext : s.pc + 1 ≤ p.size := lt_size_of_getElem? hop
  have hlabel : ∀ {location : Nat}, p.IsLabel location → location ≤ p.size :=
    fun hl => Nat.le_of_lt (hp.lt_size hl)
  cases hexec with
  | label | const | access | closure | closures | focus | arith | eq | brflTrue => exact hnext
  | @call _ _ u arg fn rest hstack hu =>
      have hfn : fn.WellFormed p := wellFormed_of_mem_stack hs (by simp [hstack])
      obtain ⟨entry, env, _, rfl, rfl⟩ | ⟨index, entries, env, entry, _, rfl, hentry, rfl⟩ :=
        Operation.callee?_eq_some_iff.mp hu
      · exact hlabel hfn
      · exact hlabel (hfn.2 entry (mem_of_entryAt? hentry))
  | @ret _ v location env rest hstack =>
      have haddress : Value.WellFormed p (.returnAddress location) :=
        wellFormed_of_mem_stack hs (by simp [hstack])
      exact haddress.1.2
  | brflFalse target hstack => exact hlabel (hp.resolved_at hop)
  | br target => exact hlabel (hp.resolved_at hop)
  | halt hstack => exact hs.pc_le

/-- **Preservation**: a step of a well-formed program keeps states well
formed. -/
theorem wellFormed_of_step (hp : p.WellFormed) (hs : s.WellFormed p) (h : p.step s = .ok t) :
    t.WellFormed p where
  pc_le := pc_le_of_step hp hs h
  values := everywhere_of_step
    (fun v hv => (hp.literal v hv).everywhere (wellFormed_of_isLiteral (hp.literal v hv)))
    (fun _ hv => hv.wellFormed hp hs) hs.values h

theorem wellFormed_initial (hp : p.WellFormed) : p.initial.WellFormed p where
  pc_le := Nat.le_of_lt (hp.lt_size hp.main)
  values := nofun

/-- A run of a well-formed program stays in well-formed states. -/
theorem wellFormed_of_reachable (hp : p.WellFormed) (hs : p.Reachable s) : s.WellFormed p :=
  reachable_induction (wellFormed_initial hp) (fun _ _ _ ih h => wellFormed_of_step hp ih h) hs

/-! ## what can stop a step -/

/-- A frame has a function for every index up to its size. -/
theorem exists_entryAt? {entries : List Nat} {index : Int} (hpos : 1 ≤ index)
    (hle : index ≤ entries.length) : ∃ entry, entryAt? entries index = some entry := by
  have hlt : (index - 1).toNat < entries.length := by omega
  refine ⟨entries[(index - 1).toNat], ?_⟩
  rw [entryAt?, if_neg (by omega), List.getElem?_eq_getElem hlt]

/-- What stops an operation of a well-formed state is a fault of the program
that is run: the machine knows the operation, and finds every constant and
every selected function. -/
theorem fault_of_stops (hp : p.WellFormed) (hs : s.WellFormed p) (hop : p.code[s.pc]? = some op)
    {e : Stop} (h : op.Stops p.constants s e) :
    ∃ f, e = .fault f ∧ f ≠ .alreadyHalted ∧ (∀ n, f ≠ .outsideProgram n) ∧
      ∀ name, f ≠ .operationUnknown name := by
  cases h with
  | @noConstant _ index hindex =>
      have hlt : index < p.constants.length := hp.resolved_at hop
      exact absurd (List.getElem?_eq_none_iff.mp hindex) (Nat.not_le.mpr hlt)
  | @noEntry _ arg index entries env rest hstack hindex =>
      have hfocused : Value.WellFormed p (.focused index entries env) :=
        wellFormed_of_mem_stack hs (by simp [hstack])
      obtain ⟨entry, hentry⟩ := exists_entryAt? hfocused.1.1 hfocused.1.2
      rw [hentry] at hindex
      contradiction
  | unknown _ code => exact (hp.resolved_at hop).elim
  | underflow | accessRange | focusType | focusRange | applyType | applynType | returnType
  | arithmeticType | overflow | equalityType | branchType =>
      exact ⟨_, rfl, nofun, nofun, nofun⟩

/-- Why a step from a well-formed state is not made: the state has halted, it
is at the very end of the program, or the program that is run has a fault. -/
theorem stop_cases (hp : p.WellFormed) (hs : s.WellFormed p) {e : Stop}
    (h : p.step s = .error e) :
    (s.isHalted = true ∧ e = .fault .alreadyHalted) ∨
    (s.isHalted = false ∧ s.pc = p.size ∧ e = .fault (.outsideProgram p.size)) ∨
    (∃ f, e = .fault f ∧ f ≠ .alreadyHalted ∧ (∀ n, f ≠ .outsideProgram n) ∧
      ∀ name, f ≠ .operationUnknown name) := by
  obtain ⟨hhalted, he⟩ | ⟨hrunning, hle, he⟩ | ⟨_, op, hop, hstops⟩ := step_eq_error_cases h
  · exact .inl ⟨hhalted, he⟩
  · have hpc : s.pc = p.size := Nat.le_antisymm hs.pc_le hle
    exact .inr (.inl ⟨hrunning, hpc, by rw [he, hpc]⟩)
  · exact .inr (.inr (fault_of_stops hp hs hop hstops))

/-- A step of a running state in the program underflows exactly if its
operation finds too few values, whatever else is wrong. -/
theorem step_eq_underflow_iff (hrunning : s.isHalted = false) (hop : p.code[s.pc]? = some op) :
    p.step s = .error (s.underflow op) ↔ s.stack.length < op.arity := by
  rw [step_eq_execute hrunning hop]
  cases h : op.execute p.constants s with
  | ok t =>
      have harity := (Operation.execute_eq_ok_iff.mp h).arity_le
      exact ⟨nofun, fun hlt => absurd harity (Nat.not_le.mpr hlt)⟩
  | error e =>
      rw [Except.error.injEq]
      exact (Operation.stops_of_execute h).eq_underflow_iff

/-- A step of a running state behind the program leaves it. -/
theorem step_of_pc_eq_size (hrunning : s.isHalted = false) (hpc : s.pc = p.size) :
    p.step s = .error (.fault (.outsideProgram p.size)) := by
  have hnone : p.code[s.pc]? = none := by
    rw [hpc]
    exact List.getElem?_eq_none (Nat.le_refl _)
  rw [step, if_neg (Bool.eq_false_iff.mp hrunning), hnone, hpc]

/-- A reachable state that has halted is still at the operation that halted. -/
theorem pc_lt_of_isHalted (hs : p.Reachable s) (hhalted : s.isHalted = true) : s.pc < p.size := by
  refine reachable_induction (motive := fun s => s.isHalted = true → s.pc < p.size) nofun
    (fun s t _ _ hstep ht => ?_) hs hhalted
  obtain ⟨_, op, hop, hexec⟩ := step_eq_ok_iff.mp hstep
  cases hexec with
  | halt hstack => exact lt_size_of_getElem? hop
  | label | const | access | closure | closures | focus | ret | arith | eq | brflTrue | brflFalse
  | br => cases ht
  | call hstack hu =>
      rw [State.isHalted_under, State.isHalted, Operation.result_callee? hu] at ht
      cases ht

/-- A state that fails other than by leaving the program is in the program. -/
theorem pc_lt_of_fault (hs : p.Reachable s) (hstep : p.step s = .error (.fault f))
    (hf : ∀ n, f ≠ .outsideProgram n) : s.pc < p.size := by
  obtain ⟨hhalted, _⟩ | ⟨_, _, he⟩ | ⟨_, op, hop, _⟩ := step_eq_error_cases hstep
  · exact pc_lt_of_isHalted hs hhalted
  · cases he
    exact absurd rfl (hf s.pc)
  · exact lt_size_of_getElem? hop

/-- **Safety of runs**: in every state that an assembled program reaches, the
program counter is in the program or just behind it and all values are well
formed.  A step from there is not stuck and knows its operation, it finds the
values that its operation takes or underflows, it is refused exactly in a
halted state, and it leaves the program only at its very end. -/
theorem run_safe {source text : String} (hp : Program.assemble source text = .ok p)
    (hs : p.Reachable s) :
    s.pc ≤ p.size ∧ s.Everywhere (Value.WellFormed p) ∧
    p.step s ≠ .error .stuck ∧
    (∀ name, p.step s ≠ .error (.fault (.operationUnknown name))) ∧
    (p.step s = .error (.fault .alreadyHalted) ↔ s.isHalted = true) ∧
    (∀ n, p.step s = .error (.fault (.outsideProgram n)) ↔
      s.isHalted = false ∧ s.pc = p.size ∧ n = p.size) ∧
    (∀ op, s.isHalted = false → p.code[s.pc]? = some op →
      (p.step s = .error (s.underflow op) ↔ s.stack.length < op.arity)) := by
  have hwf := wellFormed_of_assemble hp
  have hsafe := wellFormed_of_reachable hwf hs
  refine ⟨hsafe.pc_le, hsafe.values, ?_, ?_, ?_, ?_,
    fun op hrunning hop => step_eq_underflow_iff hrunning hop⟩
  · intro h
    obtain ⟨_, he⟩ | ⟨_, _, he⟩ | ⟨f, he, _⟩ := stop_cases hwf hsafe h <;> cases he
  · intro name h
    obtain ⟨_, he⟩ | ⟨_, _, he⟩ | ⟨f, he, _, _, hf⟩ := stop_cases hwf hsafe h <;> cases he
    exact hf name rfl
  · refine ⟨fun h => ?_, fun hhalted => by rw [step, if_pos hhalted]⟩
    obtain ⟨hhalted, _⟩ | ⟨_, _, he⟩ | ⟨f, he, hf, _⟩ := stop_cases hwf hsafe h
    · exact hhalted
    · cases he
    · cases he
      exact absurd rfl hf
  · intro n
    constructor
    · intro h
      obtain ⟨_, he⟩ | ⟨hrunning, hpc, he⟩ | ⟨f, he, _, hf, _⟩ := stop_cases hwf hsafe h
      · cases he
      · cases he
        exact ⟨hrunning, hpc, rfl⟩
      · cases he
        exact absurd rfl (hf n)
    · rintro ⟨hrunning, hpc, rfl⟩
      exact step_of_pc_eq_size hrunning hpc

/-- Safety in the middle of a call: the function finds its own frame under its
argument, and on the stack lies a return address that follows the call. -/
theorem run_safe_twoCalls :
    ∃ s, twoCalls.after 8 twoCalls.initial = .ok s ∧
      s.stack = [.returnAddress 8, .savedEnv [.frame [11] []], .focused 1 [11] []] ∧
      s.env = [.int 9, .frame [11] []] ∧
      s.Everywhere (Value.WellFormed twoCalls) ∧ twoCalls.step s ≠ .error .stuck := by
  refine ⟨_, rfl, rfl, rfl, ?_⟩
  have hsafe := run_safe assemble_twoCallsText ⟨8, rfl⟩
  exact ⟨hsafe.2.1, hsafe.2.2.1⟩

end Program

end SecdMachine
