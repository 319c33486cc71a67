import SecdMachine.Step

/-!
# SecdMachine.Proofs.Rules

The step of the machine as two sets of rules: `Operation.Executes` has one
for each way in which an operation succeeds, `Operation.Stops` one for each
reason that stops it.  They cover `Operation.execute` (`leads_execute`): the
first is exactly its success (`execute_eq_ok_iff`), and the second its failure
(`stops_of_execute`, `execute_of_stops`).  Whatever is shown of
a step later on goes through the rules and never opens `execute` again.

The two calls share a rule.  `Operation.callee?` is the state that the called
function starts in, seen from an empty stack: it depends on the function and
its argument only, and the rule puts the caller's part of the stack under it.
-/

namespace SecdMachine

namespace State

/-- The state with more values at the bottom of its stack. -/
def under (s : State) (bottom : List Value) : State :=
  { s with stack := s.stack ++ bottom }

@[simp] theorem pc_under (s : State) (bottom : List Value) : (s.under bottom).pc = s.pc := rfl

@[simp] theorem env_under (s : State) (bottom : List Value) : (s.under bottom).env = s.env := rfl

@[simp] theorem result_under (s : State) (bottom : List Value) :
    (s.under bottom).result = s.result := rfl

@[simp] theorem stack_under (s : State) (bottom : List Value) :
    (s.under bottom).stack = s.stack ++ bottom := rfl

@[simp] theorem isHalted_under (s : State) (bottom : List Value) :
    (s.under bottom).isHalted = s.isHalted := rfl

end State

namespace Operation

/-! ## calls -/

/-- Whether an operation is one of the two calls. -/
def isCall : Operation → Bool
  | .apply | .applyn => true
  | _ => false

/-- The state that a call starts the function in, on a stack of its own.
There is none if the function is not of the kind that the operation calls. -/
def callee? : Operation → Value → Value → Option State
  | .apply, .closure entry env, arg => some { pc := entry, env := arg :: env }
  | .applyn, .focused index entries env, arg =>
    (entryAt? entries index).map fun entry =>
      { pc := entry, env := arg :: .frame entries env :: env }
  | _, _, _ => none

/-- What a function can be, for its call to have a callee. -/
theorem callee?_eq_some_iff {op : Operation} {fn arg : Value} {u : State} :
    op.callee? fn arg = some u ↔
      (∃ entry env, op = .apply ∧ fn = .closure entry env ∧
        u = { pc := entry, env := arg :: env }) ∨
      (∃ index entries env entry, op = .applyn ∧ fn = .focused index entries env ∧
        entryAt? entries index = some entry ∧
        u = { pc := entry, env := arg :: .frame entries env :: env }) := by
  constructor
  · intro h
    unfold callee? at h
    split at h
    · next entry env =>
        exact .inl ⟨entry, env, rfl, rfl, (Option.some.inj h).symm⟩
    · next index entries env =>
        obtain ⟨entry, hentry, rfl⟩ := Option.map_eq_some_iff.mp h
        exact .inr ⟨index, entries, env, entry, rfl, rfl, hentry, rfl⟩
    · contradiction
  · rintro (⟨entry, env, rfl, rfl, rfl⟩ | ⟨index, entries, env, entry, rfl, rfl, hentry, rfl⟩)
    · rfl
    · simp [callee?, hentry]

theorem isCall_iff {op : Operation} : op.isCall = true ↔ op = .apply ∨ op = .applyn := by
  cases op <;> simp [isCall]

/-- Only calls have a callee. -/
theorem isCall_of_callee? {op : Operation} {fn arg : Value} {u : State}
    (h : op.callee? fn arg = some u) : op.isCall = true := by
  obtain ⟨_, _, rfl, _⟩ | ⟨_, _, _, _, rfl, _⟩ := callee?_eq_some_iff.mp h <;> rfl

/-- A callee starts with an empty stack. -/
theorem stack_callee? {op : Operation} {fn arg : Value} {u : State}
    (h : op.callee? fn arg = some u) : u.stack = [] := by
  obtain ⟨_, _, _, _, rfl⟩ | ⟨_, _, _, _, _, _, _, rfl⟩ := callee?_eq_some_iff.mp h <;> rfl

/-- A callee starts running. -/
theorem result_callee? {op : Operation} {fn arg : Value} {u : State}
    (h : op.callee? fn arg = some u) : u.result = none := by
  obtain ⟨_, _, _, _, rfl⟩ | ⟨_, _, _, _, _, _, _, rfl⟩ := callee?_eq_some_iff.mp h <;> rfl

/-! ## the rules -/

/-- `op.Executes constants s t`: the operation `op` leads from the state `s`
to the state `t`. -/
inductive Executes (constants : List Value) : Operation → State → State → Prop where
  | label (s : State) : Executes constants .label s (s.advance s.stack s.env)
  | const {s : State} {index : Nat} {v : Value} (hv : constants[index]? = some v) :
      Executes constants (.const index) s (s.advance (v :: s.stack) s.env)
  | access {s : State} {position : Nat} {v : Value}
      (hv : Value.fromTop? s.env position = some v) :
      Executes constants (.access position) s (s.advance (v :: s.stack) s.env)
  | closure (s : State) (entry : Nat) :
      Executes constants (.closure entry) s (s.advance (.closure entry s.env :: s.stack) s.env)
  | closures (s : State) (entries : List Nat) :
      Executes constants (.closures entries) s (s.advance s.stack (.frame entries s.env :: s.env))
  | focus {s : State} {index : Nat} {entries : List Nat} {env rest : List Value}
      (hstack : s.stack = .frame entries env :: rest) (hindex : index ≤ entries.length) :
      Executes constants (.focus index) s (s.advance (.focused index entries env :: rest) s.env)
  | call {op : Operation} {s u : State} {arg fn : Value} {rest : List Value}
      (hstack : s.stack = arg :: fn :: rest) (hu : op.callee? fn arg = some u) :
      Executes constants op s (u.under (s.callFrame rest))
  | ret {s : State} {v : Value} {location : Nat} {env rest : List Value}
      (hstack : s.stack = v :: .returnAddress location :: .savedEnv env :: rest) :
      Executes constants .ret s { pc := location, stack := v :: rest, env := env }
  | arith {s : State} {f : Arithmetic} {l r : Int} {rest : List Value}
      (hstack : s.stack = .int r :: .int l :: rest) (hfits : Numeral.fits (f.eval l r) = true) :
      Executes constants (.arith f) s (s.advance (.int (f.eval l r) :: rest) s.env)
  | eq {s : State} {l r : Value} {rest : List Value} (hstack : s.stack = r :: l :: rest)
      (hl : l.isScalar = true) (hr : r.isScalar = true) :
      Executes constants .eq s (s.advance (.bool (l = r) :: rest) s.env)
  | brflTrue {s : State} {rest : List Value} (target : Nat)
      (hstack : s.stack = .bool true :: rest) :
      Executes constants (.brfl target) s (s.advance rest s.env)
  | brflFalse {s : State} {rest : List Value} (target : Nat)
      (hstack : s.stack = .bool false :: rest) :
      Executes constants (.brfl target) s { pc := target, stack := rest, env := s.env }
  | br (s : State) (target : Nat) :
      Executes constants (.br target) s { pc := target, stack := s.stack, env := s.env }
  | halt {s : State} {v : Value} {rest : List Value} (hstack : s.stack = v :: rest) :
      Executes constants .halt s { s with result := some v }

/-- `op.Stops constants s e`: the operation `op` does not succeed on the state
`s`, and `e` says why. -/
inductive Stops (constants : List Value) : Operation → State → Stop → Prop where
  | underflow {op : Operation} {s : State} (hlength : s.stack.length < op.arity) :
      Stops constants op s (s.underflow op)
  | noConstant {s : State} {index : Nat} (hindex : constants[index]? = none) :
      Stops constants (.const index) s .stuck
  | accessRange {s : State} {position : Nat} (hposition : Value.fromTop? s.env position = none) :
      Stops constants (.access position) s (.fault (.accessRange position s.env.length))
  | focusType {s : State} {index : Nat} {v : Value} {rest : List Value}
      (hstack : s.stack = v :: rest) (hv : ∀ entries env, v ≠ .frame entries env) :
      Stops constants (.focus index) s (.fault (.focusType v.typeName))
  | focusRange {s : State} {index : Nat} {entries : List Nat} {env rest : List Value}
      (hstack : s.stack = .frame entries env :: rest) (hindex : entries.length < index) :
      Stops constants (.focus index) s (.fault (.focusRange index entries.length))
  | applyType {s : State} {arg fn : Value} {rest : List Value}
      (hstack : s.stack = arg :: fn :: rest) (hfn : ∀ entry env, fn ≠ .closure entry env) :
      Stops constants .apply s (.fault (.applyType fn.typeName))
  | applynType {s : State} {arg fn : Value} {rest : List Value}
      (hstack : s.stack = arg :: fn :: rest)
      (hfn : ∀ index entries env, fn ≠ .focused index entries env) :
      Stops constants .applyn s (.fault (.applynType fn.typeName))
  | noEntry {s : State} {arg : Value} {index : Int} {entries : List Nat} {env rest : List Value}
      (hstack : s.stack = arg :: .focused index entries env :: rest)
      (hindex : entryAt? entries index = none) : Stops constants .applyn s .stuck
  | returnType {s : State} {v address saved : Value} {rest : List Value}
      (hstack : s.stack = v :: address :: saved :: rest)
      (hframe : ∀ location env, address = .returnAddress location → saved ≠ .savedEnv env) :
      Stops constants .ret s (.fault (.returnType address.typeName saved.typeName))
  | arithmeticType {s : State} {f : Arithmetic} {l r : Value} {rest : List Value}
      (hstack : s.stack = r :: l :: rest) (hint : ∀ m n, r = .int m → l ≠ .int n) :
      Stops constants (.arith f) s
        (.fault (.arithmeticType (Operation.arith f).mnemonic l.typeName r.typeName))
  | overflow {s : State} {f : Arithmetic} {l r : Int} {rest : List Value}
      (hstack : s.stack = .int r :: .int l :: rest)
      (hfits : Numeral.fits (f.eval l r) = false) :
      Stops constants (.arith f) s (.fault (.overflow (Operation.arith f).mnemonic))
  | equalityType {s : State} {l r : Value} {rest : List Value} (hstack : s.stack = r :: l :: rest)
      (hscalar : (l.isScalar && r.isScalar) = false) :
      Stops constants .eq s (.fault (.equalityType l.typeName r.typeName))
  | branchType {s : State} {target : Nat} {v : Value} {rest : List Value}
      (hstack : s.stack = v :: rest) (hv : ∀ b, v ≠ .bool b) :
      Stops constants (.brfl target) s (.fault (.branchType v.typeName))
  | unknown (s : State) (code : Nat) :
      Stops constants (.unknown code) s
        (.fault (.operationUnknown (Operation.unknown code).mnemonic))

/-! ## the rules cover the step -/

/-- Either an operation succeeds as a rule says, or a rule stops it. -/
inductive Leads (constants : List Value) (op : Operation) (s : State) :
    Except Stop State → Prop where
  | ok {t : State} (h : op.Executes constants s t) : Leads constants op s (.ok t)
  | error {e : Stop} (h : op.Stops constants s e) : Leads constants op s (.error e)

theorem length_lt_one {vs : List Value} (h : ∀ v rest, vs ≠ v :: rest) : vs.length < 1 := by
  cases vs with
  | nil => exact Nat.zero_lt_succ _
  | cons v rest => exact absurd rfl (h v rest)

theorem length_lt_two {vs : List Value} (h : ∀ v w rest, vs ≠ v :: w :: rest) :
    vs.length < 2 := by
  cases vs with
  | nil => exact Nat.zero_lt_succ _
  | cons v rest => exact Nat.succ_lt_succ (length_lt_one fun w rest' hw => h v w rest' (by rw [hw]))

theorem length_lt_three {vs : List Value} (h : ∀ v w x rest, vs ≠ v :: w :: x :: rest) :
    vs.length < 3 := by
  cases vs with
  | nil => exact Nat.zero_lt_succ _
  | cons v rest =>
      exact Nat.succ_lt_succ (length_lt_two fun w x rest' hw => h v w x rest' (by rw [hw]))

/-- Every case of `execute` is covered by a rule. -/
theorem leads_execute (constants : List Value) (op : Operation) (s : State) :
    op.Leads constants s (op.execute constants s) := by
  cases op with
  | label => exact .ok (.label s)
  | closure entry => exact .ok (.closure s entry)
  | closures entries => exact .ok (.closures s entries)
  | br target => exact .ok (.br s target)
  | unknown code => exact .error (.unknown s code)
  | const index =>
      simp only [execute]
      split
      · next hv => exact .ok (.const hv)
      · next hindex => exact .error (.noConstant hindex)
  | access position =>
      simp only [execute]
      split
      · next hv => exact .ok (.access hv)
      · next hposition => exact .error (.accessRange hposition)
  | focus index =>
      simp only [execute]
      split
      · next hstack =>
          split
          · next hindex => exact .error (.focusRange hstack hindex)
          · next hindex => exact .ok (.focus hstack (Nat.le_of_not_lt hindex))
      · next hv hstack => exact .error (.focusType hstack hv)
      · next hshort => exact .error (.underflow (length_lt_one hshort))
  | apply =>
      simp only [execute]
      split
      · next arg entry env rest hstack =>
          have hu : callee? .apply (.closure entry env) arg =
              some { pc := entry, env := arg :: env } := rfl
          exact .ok (.call hstack hu)
      · next hfn hstack => exact .error (.applyType hstack hfn)
      · next hshort => exact .error (.underflow (length_lt_two hshort))
  | applyn =>
      simp only [execute]
      split
      · next arg index entries env rest hstack =>
          split
          · next entry hentry =>
              have hu : callee? .applyn (.focused index entries env) arg =
                  some { pc := entry, env := arg :: .frame entries env :: env } := by
                simp [callee?, hentry]
              exact .ok (.call hstack hu)
          · next hindex => exact .error (.noEntry hstack hindex)
      · next hfn hstack => exact .error (.applynType hstack hfn)
      · next hshort => exact .error (.underflow (length_lt_two hshort))
  | ret =>
      simp only [execute]
      split
      · next hstack => exact .ok (.ret hstack)
      · next hframe hstack => exact .error (.returnType hstack hframe)
      · next hshort => exact .error (.underflow (length_lt_three hshort))
  | arith f =>
      simp only [execute]
      split
      · next hstack =>
          split
          · next hfits => exact .ok (.arith hstack hfits)
          · next hfits => exact .error (.overflow hstack (Bool.eq_false_iff.mpr hfits))
      · next hint hstack => exact .error (.arithmeticType hstack hint)
      · next hshort => exact .error (.underflow (length_lt_two hshort))
  | eq =>
      simp only [execute]
      split
      · next hstack =>
          split
          · next hscalar =>
              obtain ⟨hl, hr⟩ := Bool.and_eq_true_iff.mp hscalar
              exact .ok (.eq hstack hl hr)
          · next hscalar => exact .error (.equalityType hstack (Bool.eq_false_iff.mpr hscalar))
      · next hshort => exact .error (.underflow (length_lt_two hshort))
  | brfl target =>
      simp only [execute]
      split
      · next hstack => exact .ok (.brflTrue target hstack)
      · next hstack => exact .ok (.brflFalse target hstack)
      · next v rest htrue hfalse hstack =>
          have hv : ∀ b, v ≠ .bool b := by
            intro b
            cases b with
            | true => exact htrue
            | false => exact hfalse
          exact .error (.branchType hstack hv)
      · next hshort => exact .error (.underflow (length_lt_one hshort))
  | halt =>
      simp only [execute]
      split
      · next hstack => exact .ok (.halt hstack)
      · next hshort => exact .error (.underflow (length_lt_one hshort))

variable {constants : List Value} {op : Operation} {s t : State} {e : Stop}

/-- **The rules are the step**: an operation succeeds exactly as a rule says. -/
theorem execute_eq_ok_iff : op.execute constants s = .ok t ↔ op.Executes constants s t := by
  constructor
  · intro h
    have hleads := leads_execute constants op s
    rw [h] at hleads
    cases hleads with
    | ok hexec => exact hexec
  · intro h
    cases h with
    | label => rfl
    | closure => rfl
    | closures => rfl
    | br => rfl
    | const hv => simp only [execute, hv]
    | access hv => simp only [execute, hv]
    | focus hstack hindex => simp only [execute, hstack, if_neg (Nat.not_lt.mpr hindex)]
    | call hstack hu =>
        obtain ⟨_, _, rfl, rfl, rfl⟩ | ⟨_, _, _, _, rfl, rfl, he, rfl⟩ := callee?_eq_some_iff.mp hu
        · simp only [execute, hstack]; rfl
        · simp only [execute, hstack, he]; rfl
    | ret hstack => simp only [execute, hstack]
    | arith hstack hfits => simp only [execute, hstack, hfits, if_true]
    | eq hstack hl hr => simp only [execute, hstack, hl, hr, Bool.and_self, if_true]
    | brflTrue target hstack => simp only [execute, hstack]
    | brflFalse target hstack => simp only [execute, hstack]
    | halt hstack => simp only [execute, hstack]

/-- An operation that does not succeed is stopped by a rule. -/
theorem stops_of_execute (h : op.execute constants s = .error e) : op.Stops constants s e := by
  have hleads := leads_execute constants op s
  rw [h] at hleads
  cases hleads with
  | error hstops => exact hstops

/-- An operation that succeeds finds all the values that it takes. -/
theorem Executes.arity_le (h : op.Executes constants s t) : op.arity ≤ s.stack.length := by
  cases h with
  | label | const | access | closure | closures | br => exact Nat.zero_le _
  | call hstack hu =>
      rw [hstack]
      obtain ⟨_, _, rfl, _⟩ | ⟨_, _, _, _, rfl, _⟩ := callee?_eq_some_iff.mp hu
      · exact Nat.le_add_left _ _
      · exact Nat.le_add_left _ _
  | focus hstack | ret hstack | arith hstack | eq hstack | brflTrue _ hstack
  | brflFalse _ hstack | halt hstack =>
      rw [hstack]
      exact Nat.le_add_left _ _

/-- An operation underflows exactly if the stack is too short for it; every
other reason to stop needs the values that it takes. -/
theorem Stops.eq_underflow_iff (h : op.Stops constants s e) :
    e = s.underflow op ↔ s.stack.length < op.arity := by
  cases h with
  | underflow hlength => exact ⟨fun _ => hlength, fun _ => rfl⟩
  | noConstant | accessRange | unknown => exact ⟨nofun, fun h => absurd h (Nat.not_lt_zero _)⟩
  | focusType hstack | focusRange hstack | branchType hstack | applyType hstack
  | applynType hstack | noEntry hstack | returnType hstack | arithmeticType hstack
  | overflow hstack | equalityType hstack =>
      simp [hstack, State.underflow, arity, opcode?, Opcode.arity]

/-- What a rule stops does not succeed, for the reason that the rule says. -/
theorem execute_of_stops (h : op.Stops constants s e) : op.execute constants s = .error e := by
  cases h with
  | underflow hlength =>
      cases hexec : op.execute constants s with
      | ok t =>
          have harity := (execute_eq_ok_iff.mp hexec).arity_le
          exact absurd harity (Nat.not_le.mpr hlength)
      | error e => rw [(stops_of_execute hexec).eq_underflow_iff.mpr hlength]
  | unknown => rfl
  | noConstant hindex => simp only [execute, hindex]
  | accessRange hposition => simp only [execute, hposition]
  | focusRange hstack hindex => simp only [execute, hstack, if_pos hindex]
  | noEntry hstack hindex => simp only [execute, hstack, hindex]
  | overflow hstack hfits => simp only [execute, hstack, hfits, Bool.false_eq_true, if_false]
  | equalityType hstack hscalar =>
      simp only [execute, hstack, hscalar, Bool.false_eq_true, if_false]
  | focusType hstack hv | applyType hstack hv | applynType hstack hv | returnType hstack hv
  | arithmeticType hstack hv => simp only [execute, hstack]
  | branchType hstack hv =>
      have htrue := hv true
      have hfalse := hv false
      simp only [execute, hstack]

end Operation

namespace Program

variable {p : Program} {s t : State} {op : Operation}

theorem step_eq_execute (hrunning : s.isHalted = false) (hop : p.code[s.pc]? = some op) :
    p.step s = op.execute p.constants s := by
  simp only [step, hrunning, hop, Bool.false_eq_true, if_false]

/-- A step is the execution of the operation at the program counter of a
state that has not halted. -/
theorem step_eq_ok_iff :
    p.step s = .ok t ↔
      s.isHalted = false ∧ ∃ op, p.code[s.pc]? = some op ∧ op.Executes p.constants s t := by
  unfold step
  cases hh : s.isHalted with
  | true => simp
  | false =>
      cases hop : p.code[s.pc]? with
      | none => simp
      | some op => simp [Operation.execute_eq_ok_iff]

/-- A step is not made because the machine has halted, because the program
counter is outside the program, or because the operation there stops. -/
theorem step_eq_error_cases {e : Stop} (h : p.step s = .error e) :
    (s.isHalted = true ∧ e = .fault .alreadyHalted) ∨
    (s.isHalted = false ∧ p.size ≤ s.pc ∧ e = .fault (.outsideProgram s.pc)) ∨
    (s.isHalted = false ∧ ∃ op, p.code[s.pc]? = some op ∧ op.Stops p.constants s e) := by
  unfold step at h
  split at h
  · next hhalted => cases h; exact .inl ⟨hhalted, rfl⟩
  · next hrunning =>
      have hrunning' : s.isHalted = false := Bool.eq_false_iff.mpr hrunning
      split at h
      · next hop =>
          cases h
          exact .inr (.inl ⟨hrunning', List.getElem?_eq_none_iff.mp hop, rfl⟩)
      · next op hop =>
          exact .inr (.inr ⟨hrunning', op, hop, Operation.stops_of_execute h⟩)

end Program

end SecdMachine
