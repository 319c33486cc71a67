import SecdMachine.Proofs.Safety

/-!
# SecdMachine.Proofs.Bookkeeping

The bookkeeping of calls, which lies on the stack in between other values:
saved environments and return addresses.

They come in pairs and only on the stack (`State.Tidy`).  A call takes
whatever it finds as an argument, and a return hands back whatever lies on
top; but the value below an argument is a function, so the argument is no
return address, and what lies on a return address is no saved environment.
The pairs on the stack are the calls that have not returned.
-/

namespace SecdMachine

/-- Whether a value is a part of the bookkeeping of calls. -/
def Value.isBookkeeping : Value → Bool
  | .returnAddress _ | .savedEnv _ => true
  | .int _ | .bool _ | .closure _ _ | .frame _ _ | .focused _ _ _ | .undefined | .unknown => false

/-! ## pairs on the stack -/

/-- Every return address lies right on a saved environment, and every saved
environment under a return address. -/
inductive Paired : List Value → Prop where
  | nil : Paired []
  | value {v : Value} {vs : List Value} (hv : v.isBookkeeping = false) (rest : Paired vs) :
      Paired (v :: vs)
  | call (location : Nat) (env : List Value) {vs : List Value} (rest : Paired vs) :
      Paired (.returnAddress location :: .savedEnv env :: vs)

/-- The number of return addresses that lie right on a saved environment. -/
def pairs : List Value → Nat
  | .returnAddress _ :: .savedEnv _ :: vs => pairs vs + 1
  | _ :: vs => pairs vs
  | [] => 0

variable {v w : Value} {vs : List Value}

theorem pairs_cons (hv : v.isBookkeeping = false) : pairs (v :: vs) = pairs vs := by
  cases v with
  | returnAddress | savedEnv => cases hv
  | int | bool | closure | frame | focused | undefined | unknown => rfl

/-- Below a value that is no bookkeeping, the pairs go on. -/
theorem Paired.tail (h : Paired (v :: vs)) (hv : v.isBookkeeping = false) : Paired vs := by
  cases h with
  | value _ rest => exact rest
  | call location env rest => cases hv

/-- What lies on a value that is no saved environment is no return address. -/
theorem Paired.head (h : Paired (v :: w :: vs)) (hw : ∀ env, w ≠ .savedEnv env) :
    v.isBookkeeping = false := by
  cases h with
  | value hv _ => exact hv
  | call location env rest => exact absurd rfl (hw env)

/-- Below a return address lies a saved environment, and then more pairs. -/
theorem Paired.of_returnAddress {location : Nat} (h : Paired (.returnAddress location :: vs)) :
    ∃ env rest, vs = .savedEnv env :: rest ∧ Paired rest := by
  cases h with
  | value hv _ => cases hv
  | call _ env rest => exact ⟨env, _, rfl, rest⟩

/-- Below a return address lies a saved environment. -/
theorem Paired.savedEnv_below (h : Paired vs) {i location : Nat}
    (hi : vs[i]? = some (.returnAddress location)) : ∃ env, vs[i + 1]? = some (.savedEnv env) := by
  induction h generalizing i with
  | nil => cases hi
  | value hv rest ih =>
      cases i with
      | zero => cases hi; cases hv
      | succ i => exact ih hi
  | call location' env rest ih =>
      match i with
      | 0 => exact ⟨env, rfl⟩
      | 1 => cases hi
      | i + 2 => exact ih hi

/-- Above a saved environment lies a return address. -/
theorem Paired.returnAddress_above (h : Paired vs) {i : Nat} {env : List Value}
    (hi : vs[i]? = some (.savedEnv env)) :
    ∃ j location, i = j + 1 ∧ vs[j]? = some (.returnAddress location) := by
  induction h generalizing i with
  | nil => cases hi
  | value hv rest ih =>
      cases i with
      | zero => cases hi; cases hv
      | succ i =>
          obtain ⟨j, location, rfl, hj⟩ := ih hi
          exact ⟨j + 1, location, rfl, hj⟩
  | call location' env' rest ih =>
      match i with
      | 0 => cases hi
      | 1 => exact ⟨0, location', rfl, rfl⟩
      | i + 2 =>
          obtain ⟨j, location, rfl, hj⟩ := ih hi
          exact ⟨j + 2, location, rfl, hj⟩

/-! ## tidy states -/

/-- A value whose environment holds no bookkeeping. -/
def Value.Clean (v : Value) : Prop :=
  ∀ w ∈ v.environment, w.isBookkeeping = false

/-- The bookkeeping in a state lies in pairs on the stack and nowhere else. -/
structure State.Tidy (s : State) : Prop where
  paired : Paired s.stack
  env : ∀ v ∈ s.env, v.isBookkeeping = false
  clean : s.Everywhere Value.Clean

namespace Program

variable {p : Program} {s t : State} {op : Operation}

theorem isBookkeeping_of_isLiteral (h : v.IsLiteral) : v.isBookkeeping = false := by
  cases v with
  | int | bool => rfl
  | closure | frame | focused | returnAddress | savedEnv | undefined | unknown => exact h.elim

theorem clean_of_isLiteral (h : v.IsLiteral) : v.Clean := by
  cases v with
  | int | bool => exact nofun
  | closure | frame | focused | returnAddress | savedEnv | undefined | unknown => exact h.elim

theorem clean_of_mem_stack (hs : s.Tidy) (hv : v ∈ s.stack) : v.Clean :=
  (hs.clean v (State.mem_contents_of_mem_stack hv)).self

/-- The values that a step makes have clean environments. -/
theorem Makes.clean (hs : s.Tidy) (h : p.Makes s v) : v.Clean := by
  cases h with
  | closure | frame | savedEnv => exact hs.env
  | @focused index entries env hop hframe hindex =>
      have hclean : Value.Clean (.frame entries env) := clean_of_mem_stack hs hframe
      exact hclean
  | @self index entries env hfn =>
      have hclean : Value.Clean (.focused index entries env) := clean_of_mem_stack hs hfn
      exact hclean
  | returnAddress | int | bool => exact nofun

/-! ## what a step does to the bookkeeping -/

/-- A function that is called is no bookkeeping. -/
theorem isBookkeeping_fn {fn arg : Value} {u : State} (h : op.callee? fn arg = some u) :
    fn.isBookkeeping = false := by
  obtain ⟨_, _, _, rfl, _⟩ | ⟨_, _, _, _, _, rfl, _⟩ := Operation.callee?_eq_some_iff.mp h
  · rfl
  · rfl

/-- Nor is its argument, since it lies on a function. -/
theorem isBookkeeping_arg {fn arg : Value} {u : State} (h : op.callee? fn arg = some u)
    (hpaired : Paired (arg :: fn :: vs)) : arg.isBookkeeping = false := by
  refine hpaired.head fun env henv => ?_
  have hfn := isBookkeeping_fn h
  rw [henv] at hfn
  cases hfn

/-- A scalar is no bookkeeping. -/
theorem isBookkeeping_of_isScalar (h : v.isScalar = true) : v.isBookkeeping = false := by
  cases v with
  | int | bool => rfl
  | closure | frame | focused | returnAddress | savedEnv | undefined | unknown => cases h

/-- A step adds a pair if it is a call, takes one away if it is a return, and
leaves the others as they are. -/
theorem paired_of_executes (hp : p.WellFormed) (hs : s.Tidy) (h : op.Executes p.constants s t) :
    Paired t.stack ∧
      pairs t.stack + [op].count .ret = pairs s.stack + [op].countP Operation.isCall := by
  have hpaired := hs.paired
  -- Operations that take values off the stack and push one that is no bookkeeping.
  have hpush : ∀ {x : Value} {stack : List Value}, x.isBookkeeping = false → Paired stack →
      Paired (x :: stack) ∧ pairs (x :: stack) = pairs stack :=
    fun hx hstack => ⟨.value hx hstack, pairs_cons hx⟩
  cases h with
  | label => exact ⟨hpaired, rfl⟩
  | const hv =>
      exact hpush (isBookkeeping_of_isLiteral (hp.literal _ (List.mem_of_getElem? hv))) hpaired
  | access hv => exact hpush (hs.env _ (Value.mem_of_fromTop? hv)) hpaired
  | closure => exact hpush rfl hpaired
  | closures => exact ⟨hpaired, rfl⟩
  | focus hstack hindex =>
      rw [hstack] at hpaired ⊢
      exact hpush rfl (hpaired.tail rfl)
  | @call _ _ u arg fn rest hstack hu =>
      have hfn := isBookkeeping_fn hu
      rw [hstack] at hpaired ⊢
      have harg := isBookkeeping_arg hu hpaired
      have hrest : Paired rest := (hpaired.tail harg).tail hfn
      rw [State.stack_under, Operation.stack_callee? hu, pairs_cons harg, pairs_cons hfn]
      refine ⟨.call _ _ hrest, ?_⟩
      obtain rfl | rfl := Operation.isCall_iff.mp (Operation.isCall_of_callee? hu)
      · rfl
      · rfl
  | @ret _ v location env rest hstack =>
      rw [hstack] at hpaired ⊢
      have hv : v.isBookkeeping = false := hpaired.head nofun
      obtain ⟨_, _, hcons, hrest⟩ := (hpaired.tail hv).of_returnAddress
      cases hcons
      refine ⟨.value hv hrest, ?_⟩
      rw [pairs_cons hv, pairs_cons hv]
      rfl
  | arith hstack hfits =>
      rw [hstack] at hpaired ⊢
      exact hpush rfl ((hpaired.tail rfl).tail rfl)
  | eq hstack hl hr =>
      have hl' := isBookkeeping_of_isScalar hl
      have hr' := isBookkeeping_of_isScalar hr
      rw [hstack] at hpaired ⊢
      rw [pairs_cons hr', pairs_cons hl']
      exact hpush rfl ((hpaired.tail hr').tail hl')
  | brflTrue target hstack =>
      rw [hstack] at hpaired ⊢
      exact ⟨hpaired.tail rfl, rfl⟩
  | brflFalse target hstack =>
      rw [hstack] at hpaired ⊢
      exact ⟨hpaired.tail rfl, rfl⟩
  | br => exact ⟨hpaired, rfl⟩
  | halt hstack => exact ⟨hpaired, rfl⟩

/-- An environment after a step holds no bookkeeping: it is made of values
that were bound before, of the argument of a call, and of a frame. -/
theorem env_of_executes (hs : s.Tidy) (h : op.Executes p.constants s t) :
    ∀ v ∈ t.env, v.isBookkeeping = false := by
  have hpaired := hs.paired
  cases h with
  | label | const | access | closure | focus | arith | eq | brflTrue | brflFalse | br | halt =>
      exact hs.env
  | closures => exact List.forall_mem_cons.mpr ⟨rfl, hs.env⟩
  | @call _ _ u arg fn rest hstack hu =>
      have hclean : fn.Clean := clean_of_mem_stack hs (by simp [hstack])
      rw [hstack] at hpaired
      have harg := isBookkeeping_arg hu hpaired
      obtain ⟨entry, env, _, rfl, rfl⟩ | ⟨index, entries, env, entry, _, rfl, _, rfl⟩ :=
        Operation.callee?_eq_some_iff.mp hu
      · exact List.forall_mem_cons.mpr ⟨harg, hclean⟩
      · exact List.forall_mem_cons.mpr ⟨harg, List.forall_mem_cons.mpr ⟨rfl, hclean⟩⟩
  | @ret _ v location env rest hstack =>
      have hclean : Value.Clean (.savedEnv env) := clean_of_mem_stack hs (by simp [hstack])
      exact hclean

/-- A step keeps states tidy. -/
theorem tidy_of_step (hp : p.WellFormed) (hs : s.Tidy) (h : p.step s = .ok t) : t.Tidy := by
  obtain ⟨_, op, _, hexec⟩ := step_eq_ok_iff.mp h
  refine ⟨(paired_of_executes hp hs hexec).1, env_of_executes hs hexec, ?_⟩
  exact everywhere_of_step
    (fun v hv => (hp.literal v hv).everywhere (clean_of_isLiteral (hp.literal v hv)))
    (fun _ hv => hv.clean hs) hs.clean h

/-- **Run case**: every reachable state is tidy. -/
theorem tidy_of_reachable (hp : p.WellFormed) (hs : p.Reachable s) : s.Tidy :=
  reachable_induction ⟨.nil, nofun, nofun⟩ (fun _ _ _ ih h => tidy_of_step hp ih h) hs

/-- **Open calls**: the pairs on the stack are the calls that have been made
less those that have returned. -/
theorem pairs_add_returns {n : Nat} (hp : p.WellFormed) (hn : p.after n p.initial = .ok s) :
    pairs s.stack + (p.executed n p.initial).count .ret =
      (p.executed n p.initial).countP Operation.isCall := by
  induction n generalizing s with
  | zero => cases hn; rfl
  | succ n ih =>
      obtain ⟨t, ht, hstep⟩ := after_succ_eq_ok_iff.mp hn
      obtain ⟨_, op, hop, hexec⟩ := step_eq_ok_iff.mp hstep
      have hpairs := (paired_of_executes hp (tidy_of_reachable hp ⟨n, ht⟩) hexec).2
      have hsum := ih ht
      rw [executed_succ ht hop, List.count_append, List.countP_append]
      omega

/-- A return from a tidy state fails for the want of a return address only:
what lies below one is a saved environment. -/
theorem ret_error_iff (hs : s.Tidy) (hrunning : s.isHalted = false)
    (hop : p.code[s.pc]? = some .ret) {x y : Value} {rest : List Value}
    (hstack : s.stack = v :: x :: y :: rest) :
    (∃ e, p.step s = .error e) ↔ ∀ location, x ≠ .returnAddress location := by
  have hpaired := hs.paired
  rw [hstack] at hpaired
  constructor
  · rintro ⟨e, he⟩ location rfl
    have hv : v.isBookkeeping = false := hpaired.head nofun
    obtain ⟨env, _, hcons, _⟩ := (hpaired.tail hv).of_returnAddress
    cases hcons
    rw [step_eq_ok_iff.mpr ⟨hrunning, .ret, hop, .ret hstack⟩] at he
    cases he
  · intro hx
    cases h : p.step s with
    | error e => exact ⟨e, rfl⟩
    | ok t =>
        obtain ⟨_, op, hop', hexec⟩ := step_eq_ok_iff.mp h
        obtain rfl : .ret = op := Option.some.inj (hop.symm.trans hop')
        cases hexec with
        | @ret _ w location env rest' hstack' =>
            rw [hstack] at hstack'
            cases hstack'
            exact absurd rfl (hx location)
        | call hstack' hu => cases hu

/-- **Bookkeeping never escapes**: on the stack of every state that a program
reaches, return addresses and saved environments lie in pairs, as many as
there are calls that have not returned; no environment holds any of them, at
any depth; and a return that finds three values fails exactly if the second
is no return address. -/
theorem bookkeeping_confined {source text : String} {n : Nat}
    (hp : Program.assemble source text = .ok p) (hn : p.after n p.initial = .ok s) :
    (∀ i location, s.stack[i]? = some (.returnAddress location) →
      ∃ env, s.stack[i + 1]? = some (.savedEnv env)) ∧
    (∀ i env, s.stack[i]? = some (.savedEnv env) →
      ∃ j location, i = j + 1 ∧ s.stack[j]? = some (.returnAddress location)) ∧
    (∀ v ∈ s.env, v.isBookkeeping = false) ∧
    s.Everywhere (fun v => ∀ w ∈ v.environment, w.isBookkeeping = false) ∧
    pairs s.stack + (p.executed n p.initial).count .ret =
      (p.executed n p.initial).countP Operation.isCall ∧
    (∀ v x y rest, s.isHalted = false → p.code[s.pc]? = some .ret →
      s.stack = v :: x :: y :: rest →
      ((∃ e, p.step s = .error e) ↔ ∀ location, x ≠ .returnAddress location)) := by
  have hwf := wellFormed_of_assemble hp
  have htidy := tidy_of_reachable hwf ⟨n, hn⟩
  exact ⟨fun _ _ hi => htidy.paired.savedEnv_below hi,
    fun _ _ hi => htidy.paired.returnAddress_above hi, htidy.env, htidy.clean,
    pairs_add_returns hwf hn,
    fun _ _ _ _ hrunning hop hstack => ret_error_iff htidy hrunning hop hstack⟩

/-- In the second call of `twoCalls` one pair is left of two calls, and the
environment, which holds a frame in a frame, is clean. -/
theorem bookkeeping_confined_twoCalls :
    ∃ s, twoCalls.after 13 twoCalls.initial = .ok s ∧
      s.stack = [.returnAddress 10, .savedEnv [.frame [11] [.frame [11] []], .frame [11] []]] ∧
      pairs s.stack = 1 ∧ (twoCalls.executed 13 twoCalls.initial).count .ret = 1 ∧
      (twoCalls.executed 13 twoCalls.initial).countP Operation.isCall = 2 ∧
      pairs s.stack + (twoCalls.executed 13 twoCalls.initial).count .ret =
        (twoCalls.executed 13 twoCalls.initial).countP Operation.isCall ∧
      ∀ v ∈ s.env, v.isBookkeeping = false := by
  refine ⟨_, rfl, rfl, rfl, rfl, rfl, ?_⟩
  have hconfined := bookkeeping_confined assemble_twoCallsText (n := 13) rfl
  exact ⟨hconfined.2.2.2.2.1, hconfined.2.2.1⟩

end Program

end SecdMachine
