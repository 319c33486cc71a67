import SecdMachine.Proofs.Relocation
import SecdMachine.Proofs.Safety

/-!
# SecdMachine.Proofs.Shift

Programs with one more label line.

A line that is put in at location `k` moves all that follows by one (`shift`).
The locations that a program names are those of labels and move with them, but
the return address of a call in front of the new line leads to the line, while
the call itself has not moved (`Lands`).  So the values of the two runs are
related (`Value.Shifted`), and not by a function of locations.

Steps correspond one to one, except that the longer program passes the new
line in a step of its own, while the other stays where it is (`stutters`).  From
the two kinds of steps it follows that the runs of each program are matched by
runs of the other (`Inserted.exists_after`, `Inserted.exists_after_of_after`),
and so are their ends.
-/

namespace SecdMachine

/-! ## locations -/

/-- Where a location moves to if a line is put in at location `k`. -/
def shift (k l : Nat) : Nat :=
  if l < k then l else l + 1

/-- `Lands k l l'`: what comes to the location `l` comes to `l'` once a line is put
in at `k`, which is where `l` has moved to, or the new line in front of it. -/
def Lands (k l l' : Nat) : Prop :=
  l' = shift k l ∨ l = k ∧ l' = k

/-- A location lands where the shift takes it. -/
theorem lands_shift (k l : Nat) : Lands k l (shift k l) :=
  .inl rfl

/-- The location behind one lands right behind where that one has moved to. -/
theorem lands_succ (k l : Nat) : Lands k (l + 1) (shift k l + 1) := by
  unfold Lands shift
  split <;> split <;> omega

/-- An entry of a moved list is the moved entry. -/
theorem entryAt?_map (entries : List Nat) (φ : Nat → Nat) (index : Int) :
    entryAt? (entries.map φ) index = (entryAt? entries index).map φ := by
  unfold entryAt?
  split
  · rfl
  · exact List.getElem?_map

/-! ## values -/

/-- Values of the same form, whose locations have moved: entry points with their
labels, and return addresses to where a return lands. -/
inductive Value.Shifted (k : Nat) : Value → Value → Prop where
  | int (n : Int) : Shifted k (.int n) (.int n)
  | bool (b : Bool) : Shifted k (.bool b) (.bool b)
  | closure (entry : Nat) {env env' : List Value} (h : List.Forall₂ (Shifted k) env env') :
      Shifted k (.closure entry env) (.closure (shift k entry) env')
  | frame (entries : List Nat) {env env' : List Value} (h : List.Forall₂ (Shifted k) env env') :
      Shifted k (.frame entries env) (.frame (entries.map (shift k)) env')
  | focused (index : Int) (entries : List Nat) {env env' : List Value}
      (h : List.Forall₂ (Shifted k) env env') :
      Shifted k (.focused index entries env) (.focused index (entries.map (shift k)) env')
  | returnAddress {l l' : Nat} (h : Lands k l l') :
      Shifted k (.returnAddress l) (.returnAddress l')
  | savedEnv {env env' : List Value} (h : List.Forall₂ (Shifted k) env env') :
      Shifted k (.savedEnv env) (.savedEnv env')
  | undefined : Shifted k .undefined .undefined
  | unknown : Shifted k .unknown .unknown

namespace Value

variable {k : Nat} {v v' : Value} {vs vs' : List Value}

/-- A shifted value has the type that it had. -/
theorem Shifted.typeName_eq (h : v.Shifted k v') : v'.typeName = v.typeName := by
  cases h <;> rfl

theorem Shifted.isScalar_eq (h : v.Shifted k v') : v'.isScalar = v.isScalar := by
  cases h <;> rfl

/-- Integers and booleans stay as they are. -/
theorem Shifted.eq_of_isScalar (h : v.Shifted k v') (hv : v.isScalar = true) : v' = v := by
  cases h with
  | int | bool => rfl
  | closure | frame | focused | returnAddress | savedEnv | undefined | unknown => cases hv

/-- Literals hold no locations, and stay as they are. -/
theorem IsLiteral.shifted (h : v.IsLiteral) : v.Shifted k v := by
  cases v with
  | int n => exact .int n
  | bool b => exact .bool b
  | closure | frame | focused | returnAddress | savedEnv | undefined | unknown => exact h.elim

/-- What is found in a list is found shifted in the shifted one. -/
theorem fromTop?_of_shifted (h : List.Forall₂ (Shifted k) vs vs') {n : Int}
    (hv : fromTop? vs n = some v) : ∃ v', fromTop? vs' n = some v' ∧ v.Shifted k v' := by
  unfold fromTop? at hv ⊢
  split at hv
  · cases hv
  · next hn =>
      obtain ⟨hi, rfl⟩ := List.getElem?_eq_some_iff.mp hv
      have hi' : (n - 1).toNat < vs'.length := h.length_eq ▸ hi
      rw [if_neg hn]
      exact ⟨_, List.getElem?_eq_getElem hi', h.get hi hi'⟩

/-- What is not found in a list is not found in the shifted one. -/
theorem fromTop?_eq_none_of_shifted (h : List.Forall₂ (Shifted k) vs vs') {n : Int}
    (hv : fromTop? vs n = none) : fromTop? vs' n = none := by
  unfold fromTop? at hv ⊢
  split at hv
  · next hn => rw [if_pos hn]
  · next hn =>
      rw [if_neg hn]
      rw [List.getElem?_eq_none_iff] at hv ⊢
      rwa [← h.length_eq]

end Value

/-! ## states -/

/-- States whose values and program counter have moved. -/
structure State.Shifted (k : Nat) (s s' : State) : Prop where
  pc : Lands k s.pc s'.pc
  stack : List.Forall₂ (Value.Shifted k) s.stack s'.stack
  env : List.Forall₂ (Value.Shifted k) s.env s'.env
  result : Option.Rel (Value.Shifted k) s.result s'.result

namespace State

variable {k : Nat} {s s' : State}

/-- A shifted state is halted if the state is. -/
theorem Shifted.isHalted_eq (h : s.Shifted k s') : s'.isHalted = s.isHalted := by
  obtain ⟨pc, stack, env, result⟩ := s
  obtain ⟨pc', stack', env', result'⟩ := s'
  have hresult : Option.Rel (Value.Shifted k) result result' := h.result
  cases hresult with
  | none => rfl
  | some hv => rfl

/-- The state after an operation that does not jump. -/
theorem shifted_advance (hpc : s'.pc = shift k s.pc) {stack stack' env env' : List Value}
    (hstack : List.Forall₂ (Value.Shifted k) stack stack')
    (henv : List.Forall₂ (Value.Shifted k) env env') :
    (s.advance stack env).Shifted k (s'.advance stack' env') := by
  refine ⟨?_, hstack, henv, .none⟩
  simp only [advance, hpc]
  exact lands_succ k s.pc

/-- A stack that has moved has its top values where the other has. -/
theorem Shifted.stack_cons (h : s.Shifted k s') {v : Value} {rest : List Value}
    (hstack : s.stack = v :: rest) :
    ∃ v' rest', s'.stack = v' :: rest' ∧ v.Shifted k v' ∧
      List.Forall₂ (Value.Shifted k) rest rest' := by
  have hs := h.stack
  rw [hstack] at hs
  obtain ⟨v', rest', hv, hrest, hs'⟩ := List.forall₂_cons_left_iff.mp hs
  exact ⟨v', rest', hs', hv, hrest⟩

theorem Shifted.stack_cons_cons (h : s.Shifted k s') {v w : Value} {rest : List Value}
    (hstack : s.stack = v :: w :: rest) :
    ∃ v' w' rest', s'.stack = v' :: w' :: rest' ∧ v.Shifted k v' ∧ w.Shifted k w' ∧
      List.Forall₂ (Value.Shifted k) rest rest' := by
  obtain ⟨v', tail, hs', hv, htail⟩ := h.stack_cons hstack
  obtain ⟨w', rest', hw, hrest, rfl⟩ := List.forall₂_cons_left_iff.mp htail
  exact ⟨v', w', rest', hs', hv, hw, hrest⟩

end State

namespace Operation

variable {k : Nat} {constants : List Value} {op : Operation} {s s' t : State} {e : Stop}

/-! ## operations -/

/-- A call of a function that has moved enters it where it has moved to. -/
theorem callee?_shifted {fn fn' arg arg' : Value} {u : State} (hu : op.callee? fn arg = some u)
    (hfn : fn.Shifted k fn') (harg : arg.Shifted k arg') :
    ∃ u', (op.relocate (shift k)).callee? fn' arg' = some u' ∧ u.Shifted k u' := by
  obtain ⟨entry, env, rfl, rfl, rfl⟩ | ⟨index, entries, env, entry, rfl, rfl, hentry, rfl⟩ :=
    callee?_eq_some_iff.mp hu
  · cases hfn with
    | closure _ henv =>
        exact ⟨_, rfl, lands_shift k entry, .nil, .cons harg henv, .none⟩
  · cases hfn with
    | focused _ _ henv =>
        refine ⟨{ pc := shift k entry, env := _ }, ?_, lands_shift k entry, .nil,
          .cons harg (.cons (.frame entries henv) henv), .none⟩
        simp [relocate, callee?, entryAt?_map, hentry]

/-- **Success**: an operation that succeeds does so on the state that has moved, and
the outcomes correspond. -/
theorem Executes.shifted (h : op.Executes constants s t) (hs : s.Shifted k s')
    (hpc : s'.pc = shift k s.pc) (hconstants : ∀ v ∈ constants, v.IsLiteral) :
    ∃ t', (op.relocate (shift k)).Executes constants s' t' ∧ t.Shifted k t' := by
  cases h with
  | label => exact ⟨_, .label s', State.shifted_advance hpc hs.stack hs.env⟩
  | @const _ index v hv =>
      have hliteral := hconstants v (List.mem_of_getElem? hv)
      exact ⟨_, .const hv, State.shifted_advance hpc (.cons hliteral.shifted hs.stack) hs.env⟩
  | access hv =>
      obtain ⟨v', hv', hshifted⟩ := Value.fromTop?_of_shifted hs.env hv
      exact ⟨_, .access hv', State.shifted_advance hpc (.cons hshifted hs.stack) hs.env⟩
  | closure _ entry =>
      exact ⟨_, .closure s' _,
        State.shifted_advance hpc (.cons (.closure entry hs.env) hs.stack) hs.env⟩
  | closures _ entries =>
      exact ⟨_, .closures s' _,
        State.shifted_advance hpc hs.stack (.cons (.frame entries hs.env) hs.env)⟩
  | @focus _ index entries env rest hstack hindex =>
      obtain ⟨_, rest', hs', hv, hrest⟩ := hs.stack_cons hstack
      cases hv with
      | frame _ henv =>
          have hindex' : index ≤ (entries.map (shift k)).length := by rwa [List.length_map]
          exact ⟨_, .focus hs' hindex',
            State.shifted_advance hpc (.cons (.focused _ entries henv) hrest) hs.env⟩
  | call hstack hu =>
      obtain ⟨arg', fn', rest', hs', harg, hfn, hrest⟩ := hs.stack_cons_cons hstack
      obtain ⟨u', hu', hshifted⟩ := callee?_shifted hu hfn harg
      refine ⟨_, .call hs' hu', hshifted.pc, ?_, hshifted.env, hshifted.result⟩
      have haddress : Lands k (s.pc + 1) (s'.pc + 1) := hpc ▸ lands_succ k s.pc
      exact List.rel_append hshifted.stack
        (.cons (.returnAddress haddress) (.cons (.savedEnv hs.env) hrest))
  | @ret _ v location env rest hstack =>
      obtain ⟨v', address, tail, hs', hv, haddress, htail⟩ := hs.stack_cons_cons hstack
      obtain ⟨saved, rest', hsaved, hrest, rfl⟩ := List.forall₂_cons_left_iff.mp htail
      cases haddress with
      | returnAddress hlands =>
          cases hsaved with
          | savedEnv henv => exact ⟨_, .ret hs', hlands, .cons hv hrest, henv, .none⟩
  | @arith _ f l r rest hstack hfits =>
      obtain ⟨_, _, rest', hs', hr, hl, hrest⟩ := hs.stack_cons_cons hstack
      cases hr
      cases hl
      exact ⟨_, .arith hs' hfits, State.shifted_advance hpc (.cons (.int _) hrest) hs.env⟩
  | eq hstack hl hr =>
      obtain ⟨_, _, rest', hs', hr', hl', hrest⟩ := hs.stack_cons_cons hstack
      cases hr'.eq_of_isScalar hr
      cases hl'.eq_of_isScalar hl
      exact ⟨_, .eq hs' hl hr, State.shifted_advance hpc (.cons (.bool _) hrest) hs.env⟩
  | brflTrue target hstack =>
      obtain ⟨_, rest', hs', hv, hrest⟩ := hs.stack_cons hstack
      cases hv
      exact ⟨_, .brflTrue _ hs', State.shifted_advance hpc hrest hs.env⟩
  | brflFalse target hstack =>
      obtain ⟨_, rest', hs', hv, hrest⟩ := hs.stack_cons hstack
      cases hv
      exact ⟨_, .brflFalse _ hs', lands_shift k target, hrest, hs.env, .none⟩
  | br _ target => exact ⟨_, .br s' _, lands_shift k target, hs.stack, hs.env, .none⟩
  | halt hstack =>
      obtain ⟨v', rest', hs', hv, hrest⟩ := hs.stack_cons hstack
      exact ⟨_, .halt hs', hs.pc, hs.stack, hs.env, .some hv⟩

/-- **Failure**: an operation that is stopped is stopped on the state that has moved,
for the same reason. -/
theorem Stops.shifted (h : op.Stops constants s e) (hs : s.Shifted k s') :
    (op.relocate (shift k)).Stops constants s' e := by
  have hlength := hs.stack.length_eq
  cases h with
  | underflow hshort =>
      have hunderflow : s.underflow op = s'.underflow (op.relocate (shift k)) := by
        simp [State.underflow, hlength]
      rw [hunderflow]
      exact .underflow (by simpa [← hlength] using hshort)
  | noConstant hindex => exact .noConstant hindex
  | accessRange hposition =>
      rw [hs.env.length_eq]
      exact .accessRange (Value.fromTop?_eq_none_of_shifted hs.env hposition)
  | focusType hstack hv =>
      obtain ⟨v', rest', hs', hshifted, _⟩ := hs.stack_cons hstack
      rw [← hshifted.typeName_eq]
      refine .focusType hs' fun entries env he => ?_
      subst he
      cases hshifted
      exact hv _ _ rfl
  | @focusRange _ index entries env rest hstack hindex =>
      obtain ⟨_, rest', hs', hv, _⟩ := hs.stack_cons hstack
      cases hv with
      | frame _ henv =>
          rw [← List.length_map (shift k)] at hindex ⊢
          exact .focusRange hs' hindex
  | applyType hstack hfn =>
      obtain ⟨arg', fn', rest', hs', _, hshifted, _⟩ := hs.stack_cons_cons hstack
      rw [← hshifted.typeName_eq]
      refine .applyType hs' fun entry env he => ?_
      subst he
      cases hshifted
      exact hfn _ _ rfl
  | applynType hstack hfn =>
      obtain ⟨arg', fn', rest', hs', _, hshifted, _⟩ := hs.stack_cons_cons hstack
      rw [← hshifted.typeName_eq]
      refine .applynType hs' fun index entries env he => ?_
      subst he
      cases hshifted
      exact hfn _ _ _ rfl
  | noEntry hstack hindex =>
      obtain ⟨arg', _, rest', hs', _, hfn, _⟩ := hs.stack_cons_cons hstack
      cases hfn with
      | focused _ _ henv => exact .noEntry hs' (by rw [entryAt?_map, hindex]; rfl)
  | returnType hstack hframe =>
      obtain ⟨v', address', tail, hs', _, haddress, htail⟩ := hs.stack_cons_cons hstack
      obtain ⟨saved', rest', hsaved, _, rfl⟩ := List.forall₂_cons_left_iff.mp htail
      rw [← haddress.typeName_eq, ← hsaved.typeName_eq]
      refine .returnType hs' fun location env he he' => ?_
      subst he he'
      cases haddress
      cases hsaved
      exact hframe _ _ rfl rfl
  | arithmeticType hstack hint =>
      obtain ⟨r', l', rest', hs', hr, hl, _⟩ := hs.stack_cons_cons hstack
      rw [← hr.typeName_eq, ← hl.typeName_eq]
      refine .arithmeticType hs' fun m n he he' => ?_
      subst he he'
      cases hr
      cases hl
      exact hint _ _ rfl rfl
  | overflow hstack hfits =>
      obtain ⟨_, _, rest', hs', hr, hl, _⟩ := hs.stack_cons_cons hstack
      cases hr
      cases hl
      exact .overflow hs' hfits
  | equalityType hstack hscalar =>
      obtain ⟨r', l', rest', hs', hr, hl, _⟩ := hs.stack_cons_cons hstack
      rw [← hr.typeName_eq, ← hl.typeName_eq]
      exact .equalityType hs' (by rw [hr.isScalar_eq, hl.isScalar_eq, hscalar])
  | branchType hstack hv =>
      obtain ⟨v', rest', hs', hshifted, _⟩ := hs.stack_cons hstack
      rw [← hshifted.typeName_eq]
      refine .branchType hs' fun b he => ?_
      subst he
      cases hshifted
      exact hv b rfl
  | unknown _ code => exact .unknown s' code

end Operation

/-! ## programs -/

/-- The identifier of the fault that a step stops with. -/
def Stop.id? : Stop → Option String
  | .fault f => some f.id
  | .stuck => none

namespace Program

variable {k n m : Nat} {p p' : Program} {s s' t t' : State} {e e' : Stop}

/-- `Inserted k p p'`: the program `p'` is `p` with one more label line, at location
`k`. -/
structure Inserted (k : Nat) (p p' : Program) : Prop where
  label : p'.code[k]? = some .label
  moved : ∀ l : Nat, p'.code[shift k l]? = p.code[l]?.map (Operation.relocate (shift k))
  constants : p'.constants = p.constants
  main : p'.main = shift k p.main
  literal : ∀ v ∈ p.constants, v.IsLiteral

/-- Whether the next step of the two programs is the same: the longer one is not at
the new line, or both have halted. -/
def Settled (k : Nat) (s s' : State) : Prop :=
  s.isHalted = true ∨ s'.pc = shift k s.pc

/-- The two programs start in states that are shifted. -/
theorem Inserted.shifted_initial (h : Inserted k p p') : p.initial.Shifted k p'.initial :=
  ⟨.inl h.main, .nil, .nil, .none⟩

/-- **Step case**: the steps of both programs correspond. -/
theorem Inserted.step (h : Inserted k p p') (hs : s.Shifted k s') (hsettled : Settled k s s')
    (hstep : p.step s = .ok t) : ∃ t', p'.step s' = .ok t' ∧ t.Shifted k t' := by
  obtain ⟨hrunning, op, hop, hexec⟩ := step_eq_ok_iff.mp hstep
  have hpc : s'.pc = shift k s.pc := hsettled.resolve_left (by simp [hrunning])
  obtain ⟨t', hexec', ht⟩ := hexec.shifted hs hpc h.literal
  refine ⟨t', step_eq_ok_iff.mpr ⟨hs.isHalted_eq.trans hrunning, _, ?_, h.constants ▸ hexec'⟩, ht⟩
  rw [hpc, h.moved, hop]
  rfl

/-- The failures of both programs correspond as well. -/
theorem Inserted.step_error (h : Inserted k p p') (hs : s.Shifted k s')
    (hsettled : Settled k s s') (hstep : p.step s = .error e) :
    ∃ e', p'.step s' = .error e' ∧ e'.id? = e.id? := by
  obtain ⟨hhalted, rfl⟩ | ⟨hrunning, hsize, rfl⟩ | ⟨hrunning, op, hop, hstops⟩ :=
    step_eq_error_cases hstep
  · exact ⟨_, by rw [Program.step, if_pos (hs.isHalted_eq.trans hhalted)], rfl⟩
  · have hpc : s'.pc = shift k s.pc := hsettled.resolve_left (by simp [hrunning])
    have hnone : p'.code[s'.pc]? = none := by
      rw [hpc, h.moved, List.getElem?_eq_none hsize]
      rfl
    refine ⟨.fault (.outsideProgram s'.pc), ?_, rfl⟩
    rw [Program.step, hs.isHalted_eq, hrunning, hnone]
    rfl
  · have hpc : s'.pc = shift k s.pc := hsettled.resolve_left (by simp [hrunning])
    have hop' : p'.code[s'.pc]? = some (op.relocate (shift k)) := by
      rw [hpc, h.moved, hop]
      rfl
    refine ⟨e, ?_, rfl⟩
    rw [step_eq_execute (hs.isHalted_eq.trans hrunning) hop', h.constants]
    exact Operation.execute_of_stops (hstops.shifted hs)

/-- At the new line, the longer program makes a step that the other does not. -/
theorem Inserted.stutters (h : Inserted k p p') (hs : s.Shifted k s')
    (hnot : ¬ Settled k s s') :
    ∃ t', p'.step s' = .ok t' ∧ s.Shifted k t' ∧ Settled k s t' := by
  obtain ⟨hrunning, hpc⟩ := not_or.mp hnot
  obtain ⟨hk, hk'⟩ := hs.pc.resolve_left hpc
  have hrunning : s.isHalted = false := Bool.eq_false_iff.mpr hrunning
  have hnext : s'.pc + 1 = shift k s.pc := by
    unfold shift
    split <;> omega
  have hstep : p'.step s' = .ok (s'.advance s'.stack s'.env) :=
    step_eq_ok_iff.mpr ⟨hs.isHalted_eq.trans hrunning, .label, hk' ▸ h.label, .label s'⟩
  have hresult : s.result = none := by simpa [State.isHalted] using hrunning
  refine ⟨_, hstep, ⟨.inl hnext, hs.stack, hs.env, ?_⟩, .inr hnext⟩
  rw [hresult]
  exact .none

/-! ## runs -/

/-- The longer program passes the new line if it is there. -/
theorem Inserted.settles (h : Inserted k p p') (hs : s.Shifted k s') :
    ∃ m t', p'.after m s' = .ok t' ∧ s.Shifted k t' ∧ Settled k s t' := by
  by_cases hsettled : Settled k s s'
  · exact ⟨0, s', rfl, hs, hsettled⟩
  · obtain ⟨t', hstep, ht⟩ := h.stutters hs hsettled
    exact ⟨1, t', hstep, ht⟩

/-- **Run case**: the longer program goes through all that the other does. -/
theorem Inserted.exists_after (h : Inserted k p p') (hs : p.after n p.initial = .ok s) :
    ∃ m s', p'.after m p'.initial = .ok s' ∧ s.Shifted k s' ∧ Settled k s s' := by
  induction n generalizing s with
  | zero =>
      cases hs
      exact h.settles h.shifted_initial
  | succ n ih =>
      obtain ⟨r, hr, hstep⟩ := after_succ_eq_ok_iff.mp hs
      obtain ⟨m, r', hr', hshifted, hsettled⟩ := ih hr
      obtain ⟨t', hstep', ht⟩ := h.step hshifted hsettled hstep
      obtain ⟨j, s', hs', hsettles⟩ := h.settles ht
      refine ⟨m + 1 + j, s', ?_, hsettles⟩
      rw [after_add_of_ok ((after_succ hr').trans hstep'), hs']

/-- The other program goes through all that the longer one does. -/
theorem Inserted.exists_after_of_after (h : Inserted k p p')
    (hs : p'.after m p'.initial = .ok s') :
    ∃ n s, p.after n p.initial = .ok s ∧ s.Shifted k s' := by
  induction m generalizing s' with
  | zero =>
      cases hs
      exact ⟨0, p.initial, rfl, h.shifted_initial⟩
  | succ m ih =>
      obtain ⟨r', hr', hstep'⟩ := after_succ_eq_ok_iff.mp hs
      obtain ⟨n, r, hr, hshifted⟩ := ih hr'
      by_cases hsettled : Settled k r r'
      · cases hstep : p.step r with
        | ok s =>
            obtain ⟨t', ht', ht⟩ := h.step hshifted hsettled hstep
            rw [hstep'] at ht'
            cases ht'
            exact ⟨n + 1, s, (after_succ hr).trans hstep, ht⟩
        | error e =>
            obtain ⟨e', he', _⟩ := h.step_error hshifted hsettled hstep
            rw [hstep'] at he'
            cases he'
      · obtain ⟨t', ht', ht, _⟩ := h.stutters hshifted hsettled
        rw [hstep'] at ht'
        cases ht'
        exact ⟨n, r, hr, ht⟩

/-! ## ends of runs -/

/-- **Results**: the programs halt with the same scalars. -/
theorem Inserted.haltsWith_iff (h : Inserted k p p') {v : Value} (hv : v.isScalar = true) :
    p'.HaltsWith v ↔ p.HaltsWith v := by
  have hresult {r r' : Option Value} (hr : Option.Rel (Value.Shifted k) r r') :
      r' = some v ↔ r = some v := by
    cases hr with
    | none => rfl
    | @some w w' hw =>
        rw [Option.some.injEq, Option.some.injEq]
        constructor
        · rintro rfl
          exact (hw.eq_of_isScalar (hw.isScalar_eq ▸ hv)).symm
        · rintro rfl
          exact hw.eq_of_isScalar hv
  constructor
  · rintro ⟨m, s', hs', hhalts⟩
    obtain ⟨n, s, hs, hshifted⟩ := h.exists_after_of_after hs'
    exact ⟨n, s, hs, (hresult hshifted.result).mp hhalts⟩
  · rintro ⟨n, s, hs, hhalts⟩
    obtain ⟨m, s', hs', hshifted, _⟩ := h.exists_after hs
    exact ⟨m, s', hs', (hresult hshifted.result).mpr hhalts⟩

/-- Where one program fails, the other does with the same identifier. -/
theorem Inserted.exists_error_iff (h : Inserted k p p') {id : Option String} :
    (∃ n s e, p'.after n p'.initial = .ok s ∧ p'.step s = .error e ∧ e.id? = id) ↔
      ∃ n s e, p.after n p.initial = .ok s ∧ p.step s = .error e ∧ e.id? = id := by
  constructor
  · rintro ⟨m, s', e', hs', hstep', rfl⟩
    obtain ⟨n, s, hs, hshifted⟩ := h.exists_after_of_after hs'
    by_cases hsettled : Settled k s s'
    · cases hstep : p.step s with
      | ok t =>
          obtain ⟨t', ht', _⟩ := h.step hshifted hsettled hstep
          rw [hstep'] at ht'
          cases ht'
      | error e =>
          obtain ⟨e'', he'', hid⟩ := h.step_error hshifted hsettled hstep
          rw [hstep'] at he''
          cases he''
          exact ⟨n, s, e, hs, hstep, hid.symm⟩
    · obtain ⟨t', ht', _⟩ := h.stutters hshifted hsettled
      rw [hstep'] at ht'
      cases ht'
  · rintro ⟨n, s, e, hs, hstep, rfl⟩
    obtain ⟨m, s', hs', hshifted, hsettled⟩ := h.exists_after hs
    obtain ⟨e', he', hid⟩ := h.step_error hshifted hsettled hstep
    exact ⟨m, s', e', hs', he', hid⟩

/-- A run fails with an identifier if one of its states does. -/
theorem failsWith_iff {id : String} :
    p.FailsWith id ↔
      ∃ n s e, p.after n p.initial = .ok s ∧ p.step s = .error e ∧ e.id? = some id := by
  constructor
  · rintro ⟨n, s, f, hs, hstep, rfl⟩
    exact ⟨n, s, .fault f, hs, hstep, rfl⟩
  · rintro ⟨n, s, e, hs, hstep, hid⟩
    cases e with
    | fault f => exact ⟨n, s, f, hs, hstep, Option.some.inj hid⟩
    | stuck => cases hid

/-- **Failures**: the programs fail with the same identifiers. -/
theorem Inserted.failsWith_iff (h : Inserted k p p') {id : String} :
    p'.FailsWith id ↔ p.FailsWith id := by
  rw [Program.failsWith_iff, Program.failsWith_iff, h.exists_error_iff]

/-- **Divergence**: one of the programs runs forever if the other does. -/
theorem Inserted.runsForever_iff (h : Inserted k p p') : p'.RunsForever ↔ p.RunsForever := by
  rw [Program.runsForever_iff, Program.runsForever_iff]
  constructor
  · intro hforever n s e hs hstep
    obtain ⟨m, s', e', hs', hstep', _⟩ := h.exists_error_iff.mpr ⟨n, s, e, hs, hstep, rfl⟩
    exact hforever m s' e' hs' hstep'
  · intro hforever m s' e' hs' hstep'
    obtain ⟨n, s, e, hs, hstep, _⟩ := h.exists_error_iff.mp ⟨m, s', e', hs', hstep', rfl⟩
    exact hforever n s e hs hstep

end Program

end SecdMachine
