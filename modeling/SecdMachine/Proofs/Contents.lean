import SecdMachine.Proofs.Run

/-!
# SecdMachine.Proofs.Contents

The values that a state holds, and where a step takes them from.

A value lies in a state directly, on the stack, in the environment or as the
result (`State.contents`), or nested in such a value, since functions and
saved environments carry an environment of their own (`Value.environment`).
`Value.Everywhere P` says that `P` holds at every depth.

A step moves values around, takes an environment out of a value that it
found, or makes one of a few new values (`Program.Makes`).  So a property of
values holds everywhere in a state that is reached if it holds of the
constants and of the values that steps make (`everywhere_of_step`).
-/

namespace SecdMachine

namespace Value

/-- The environment that a value carries. -/
def environment : Value → List Value
  | .closure _ env | .frame _ env | .focused _ _ env | .savedEnv env => env
  | .int _ | .bool _ | .returnAddress _ | .undefined | .unknown => []

/-- The values in the environment of a value are smaller than it is. -/
theorem sizeOf_lt_of_mem_environment {v w : Value} (h : w ∈ v.environment) :
    sizeOf w < sizeOf v := by
  have hlt := List.sizeOf_lt_of_mem h
  cases v with
  | int | bool | returnAddress | undefined | unknown => exact absurd h List.not_mem_nil
  | closure | frame | focused | savedEnv =>
      simp only [environment] at hlt
      simp
      omega

/-- A property of values holds of all of them if it is handed on from the values
of an environment to the value that carries it. -/
theorem induction {motive : Value → Prop}
    (step : ∀ v, (∀ w ∈ v.environment, motive w) → motive v) (v : Value) : motive v :=
  step v fun w _ => induction step w
termination_by sizeOf v
decreasing_by
  next hw => exact sizeOf_lt_of_mem_environment hw

/-- `v.Everywhere P`: the property `P` holds of `v` and of every value that is
nested in it, at any depth. -/
inductive Everywhere (P : Value → Prop) : Value → Prop where
  | intro {v : Value} (self : P v) (inner : ∀ w ∈ v.environment, Everywhere P w) :
      Everywhere P v

variable {P Q : Value → Prop} {v : Value}

theorem Everywhere.self (h : v.Everywhere P) : P v := by
  cases h with
  | intro self inner => exact self

/-- What holds everywhere in a value holds everywhere in its environment. -/
theorem Everywhere.inner (h : v.Everywhere P) : ∀ w ∈ v.environment, w.Everywhere P := by
  cases h with
  | intro self inner => exact inner

/-- What follows from a property follows everywhere. -/
theorem Everywhere.mono (h : v.Everywhere P) (himp : ∀ w, P w → Q w) : v.Everywhere Q := by
  induction h with
  | intro self inner ih => exact .intro (himp _ self) ih

/-- A value without an environment has nothing nested in it. -/
theorem everywhere_of_environment_eq_nil (hv : P v) (h : v.environment = []) :
    v.Everywhere P := by
  refine .intro hv fun w hw => ?_
  rw [h] at hw
  exact absurd hw List.not_mem_nil

/-- What is found from the top of a list is one of its members. -/
theorem mem_of_fromTop? {vs : List Value} {n : Int} (h : fromTop? vs n = some v) : v ∈ vs := by
  unfold fromTop? at h
  split at h
  · contradiction
  · exact List.mem_of_getElem? h

end Value

namespace State

/-- The values that lie in a state directly. -/
def contents (s : State) : List Value :=
  s.stack ++ s.env ++ s.result.toList

/-- The property `P` holds of every value in a state, at any depth. -/
def Everywhere (P : Value → Prop) (s : State) : Prop :=
  ∀ v ∈ s.contents, v.Everywhere P

variable {s : State} {v : Value}

/-- A state holds the values of its stack, of its environment, and its result. -/
theorem mem_contents : v ∈ s.contents ↔ v ∈ s.stack ∨ v ∈ s.env ∨ s.result = some v := by
  simp [contents]

theorem mem_contents_of_mem_stack (h : v ∈ s.stack) : v ∈ s.contents :=
  mem_contents.mpr (.inl h)

theorem mem_contents_of_mem_env (h : v ∈ s.env) : v ∈ s.contents :=
  mem_contents.mpr (.inr (.inl h))

end State

namespace Program

variable {p : Program} {s t : State} {v : Value} {P : Value → Prop}

/-! ## what a step makes -/

/-- The values that a step from `s` makes. -/
inductive Makes (p : Program) (s : State) : Value → Prop where
  | closure {entry : Nat} (hop : p.code[s.pc]? = some (.closure entry)) :
      Makes p s (.closure entry s.env)
  | frame {entries : List Nat} (hop : p.code[s.pc]? = some (.closures entries)) :
      Makes p s (.frame entries s.env)
  | focused {index : Nat} {entries : List Nat} {env : List Value}
      (hop : p.code[s.pc]? = some (.focus index)) (hframe : .frame entries env ∈ s.stack)
      (hindex : index ≤ entries.length) : Makes p s (.focused index entries env)
  | self {index : Int} {entries : List Nat} {env : List Value}
      (hfn : .focused index entries env ∈ s.stack) : Makes p s (.frame entries env)
  | savedEnv : Makes p s (.savedEnv s.env)
  | returnAddress {op : Operation} (hop : p.code[s.pc]? = some op) (hcall : op.isCall = true) :
      Makes p s (.returnAddress (s.pc + 1))
  | int {n : Int} (hfits : Numeral.fits n = true) : Makes p s (.int n)
  | bool (b : Bool) : Makes p s (.bool b)

/-- What is nested in a value that a step makes was there before. -/
theorem Makes.everywhere (hs : s.Everywhere P) (h : p.Makes s v) (hv : P v) :
    v.Everywhere P := by
  have henv : ∀ w ∈ s.env, w.Everywhere P := fun w hw =>
    hs w (State.mem_contents_of_mem_env hw)
  have hinner : ∀ w ∈ s.stack, ∀ x ∈ w.environment, x.Everywhere P := fun w hw =>
    (hs w (State.mem_contents_of_mem_stack hw)).inner
  cases h with
  | closure hop => exact .intro hv henv
  | frame hop => exact .intro hv henv
  | @focused index entries env hop hframe hindex =>
      exact .intro hv (hinner (.frame entries env) hframe)
  | @self index entries env hfn => exact .intro hv (hinner (.focused index entries env) hfn)
  | savedEnv => exact .intro hv henv
  | returnAddress hop hcall => exact Value.everywhere_of_environment_eq_nil hv rfl
  | int hfits => exact Value.everywhere_of_environment_eq_nil hv rfl
  | bool b => exact Value.everywhere_of_environment_eq_nil hv rfl

/-! ## where a step takes its values from -/

/-- Where a value in the state after a step from `s` can come from. -/
inductive Origin (p : Program) (s : State) (v : Value) : Prop where
  | stack (h : v ∈ s.stack)
  | env (h : v ∈ s.env)
  | inner {w : Value} (hw : w ∈ s.stack) (h : v ∈ w.environment)
  | constant (h : v ∈ p.constants)
  | made (h : p.Makes s v)

/-- A value of the next state has a property everywhere if the constants, the state
before and what the step makes have it. -/
theorem Origin.everywhere (hconst : ∀ v ∈ p.constants, v.Everywhere P)
    (hmade : ∀ v, p.Makes s v → P v) (hs : s.Everywhere P) (h : p.Origin s v) :
    v.Everywhere P := by
  cases h with
  | stack h => exact hs v (State.mem_contents_of_mem_stack h)
  | env h => exact hs v (State.mem_contents_of_mem_env h)
  | inner hw h => exact (hs _ (State.mem_contents_of_mem_stack hw)).inner v h
  | constant h => exact hconst v h
  | made h => exact h.everywhere hs (hmade v h)

/-- A call makes the frame of its function anew, if it calls one of a frame,
and takes everything else in the callee's environment off the stack. -/
theorem origin_callee? {op : Operation} {fn arg : Value} {u : State} {rest : List Value}
    (hstack : s.stack = arg :: fn :: rest) (hu : op.callee? fn arg = some u) :
    ∀ v ∈ u.env, p.Origin s v := by
  have harg : arg ∈ s.stack := by simp [hstack]
  have hfn : fn ∈ s.stack := by simp [hstack]
  obtain ⟨entry, env, rfl, rfl, rfl⟩ | ⟨index, entries, env, entry, rfl, rfl, _, rfl⟩ :=
    Operation.callee?_eq_some_iff.mp hu
  · exact List.forall_mem_cons.mpr ⟨.stack harg, fun v hv => .inner hfn hv⟩
  · exact List.forall_mem_cons.mpr ⟨.stack harg,
      List.forall_mem_cons.mpr ⟨.made (.self hfn), fun v hv => .inner hfn hv⟩⟩

/-- **Origins**: every value in the state after a step was in the state before
it, or in the environment of a value on its stack, or is a constant of the
program, or has just been made. -/
theorem origin_of_step (h : p.step s = .ok t) : ∀ v ∈ t.contents, p.Origin s v := by
  obtain ⟨hrunning, op, hop, hexec⟩ := step_eq_ok_iff.mp h
  have hstk : ∀ v ∈ s.stack, p.Origin s v := fun v hv => .stack hv
  have henv : ∀ v ∈ s.env, p.Origin s v := fun v hv => .env hv
  suffices hparts : (∀ v ∈ t.stack, p.Origin s v) ∧ (∀ v ∈ t.env, p.Origin s v) ∧
      ∀ v, t.result = some v → p.Origin s v by
    intro v hv
    obtain hv | hv | hv := State.mem_contents.mp hv
    · exact hparts.1 v hv
    · exact hparts.2.1 v hv
    · exact hparts.2.2 v hv
  cases hexec with
  | label => exact ⟨hstk, henv, nofun⟩
  | const hc =>
      exact ⟨List.forall_mem_cons.mpr ⟨.constant (List.mem_of_getElem? hc), hstk⟩, henv, nofun⟩
  | access ha =>
      exact ⟨List.forall_mem_cons.mpr ⟨.env (Value.mem_of_fromTop? ha), hstk⟩, henv, nofun⟩
  | closure => exact ⟨List.forall_mem_cons.mpr ⟨.made (.closure hop), hstk⟩, henv, nofun⟩
  | closures => exact ⟨hstk, List.forall_mem_cons.mpr ⟨.made (.frame hop), henv⟩, nofun⟩
  | @focus _ index entries env rest hstack hindex =>
      have hframe : .frame entries env ∈ s.stack := by simp [hstack]
      rw [hstack, List.forall_mem_cons] at hstk
      exact ⟨List.forall_mem_cons.mpr ⟨.made (.focused hop hframe hindex), hstk.2⟩, henv, nofun⟩
  | @call op _ u arg fn rest hstack hu =>
      have haddress : p.Makes s (.returnAddress (s.pc + 1)) :=
        .returnAddress hop (Operation.isCall_of_callee? hu)
      rw [hstack, List.forall_mem_cons, List.forall_mem_cons] at hstk
      refine ⟨?_, ?_, ?_⟩
      · rw [State.stack_under, Operation.stack_callee? hu]
        exact List.forall_mem_cons.mpr ⟨.made haddress,
          List.forall_mem_cons.mpr ⟨.made .savedEnv, hstk.2.2⟩⟩
      · rw [State.env_under]
        exact origin_callee? hstack hu
      · rw [State.result_under, Operation.result_callee? hu]
        exact nofun
  | @ret _ v location env rest hstack =>
      have hsaved : .savedEnv env ∈ s.stack := by simp [hstack]
      rw [hstack, List.forall_mem_cons, List.forall_mem_cons, List.forall_mem_cons] at hstk
      exact ⟨List.forall_mem_cons.mpr ⟨hstk.1, hstk.2.2.2⟩, fun w hw => .inner hsaved hw, nofun⟩
  | arith hstack hfits =>
      rw [hstack, List.forall_mem_cons, List.forall_mem_cons] at hstk
      exact ⟨List.forall_mem_cons.mpr ⟨.made (.int hfits), hstk.2.2⟩, henv, nofun⟩
  | eq hstack hl hr =>
      rw [hstack, List.forall_mem_cons, List.forall_mem_cons] at hstk
      exact ⟨List.forall_mem_cons.mpr ⟨.made (.bool _), hstk.2.2⟩, henv, nofun⟩
  | brflTrue target hstack =>
      rw [hstack, List.forall_mem_cons] at hstk
      exact ⟨hstk.2, henv, nofun⟩
  | brflFalse target hstack =>
      rw [hstack, List.forall_mem_cons] at hstk
      exact ⟨hstk.2, henv, nofun⟩
  | br => exact ⟨hstk, henv, nofun⟩
  | @halt _ v rest hstack =>
      refine ⟨hstk, henv, fun w hw => ?_⟩
      cases hw
      exact .stack (by simp [hstack])

/-- A property that the constants have everywhere, and the values that a step
makes have themselves, is kept by the step. -/
theorem everywhere_of_step (hconst : ∀ v ∈ p.constants, v.Everywhere P)
    (hmade : ∀ v, p.Makes s v → P v) (hs : s.Everywhere P) (h : p.step s = .ok t) :
    t.Everywhere P :=
  fun v hv => (origin_of_step h v hv).everywhere hconst hmade hs

end Program

end SecdMachine
