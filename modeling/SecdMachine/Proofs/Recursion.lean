import Mathlib.Data.Nat.Factorial.Basic
import SecdMachine.Examples
import SecdMachine.Proofs.Literals

/-!
# SecdMachine.Proofs.Recursion

The recursive examples compute their functions, for every argument.

The run of a program depends on its operations, its constants and its start
only (`Program.RunsAs`), so each example is shown of a program that has nothing
else: `evenOddProgram`, `addProgram` and `factProgram`, which take the values of
the literals.  The text with any literals of these values is assembled to a
program that runs as that one does.

A run is put together from pieces (`Program.Reaches`).  Two of them stand in
every example: the test of an argument for zero (`reaches_test`) and the
decrement that the recursive call is made with (`reaches_decrement`).  Each
function is then shown to come from its entry to its return with its value on
the stack, by induction on the argument; the values that the pending calls keep
below on the stack are arbitrary.  Where a result is not a machine integer, the
run fails in the first arithmetic operation that cannot represent it.
-/

namespace SecdMachine

namespace Program

variable {p q : Program} {s t u : State} {v : Value}

/-! ## programs that run alike -/

/-- `p.RunsAs q`: the programs differ in the labels and statements at most, which
a run does not use. -/
structure RunsAs (p q : Program) : Prop where
  code : p.code = q.code
  constants : p.constants = q.constants
  main : p.main = q.main

theorem RunsAs.step (h : p.RunsAs q) (s : State) : p.step s = q.step s := by
  simp only [Program.step, h.code, h.constants]

/-- Programs that run alike have the same state after any number of steps. -/
theorem RunsAs.after (h : p.RunsAs q) (n : Nat) : p.after n p.initial = q.after n q.initial := by
  induction n with
  | zero => simp only [after_zero, initial, h.main]
  | succ n ih => simp only [Program.after, ih, h.step]

/-- Programs that run alike halt alike. -/
theorem RunsAs.haltsWith (h : p.RunsAs q) (hq : q.HaltsWith v) : p.HaltsWith v := by
  obtain ⟨n, s, hs, hv⟩ := hq
  exact ⟨n, s, (h.after n).trans hs, hv⟩

/-- Programs that run alike fail alike. -/
theorem RunsAs.failsWith (h : p.RunsAs q) {id : String} (hq : q.FailsWith id) :
    p.FailsWith id := by
  obtain ⟨n, s, f, hs, hstep, hid⟩ := hq
  exact ⟨n, s, f, (h.after n).trans hs, (h.step s).trans hstep, hid⟩

/-- The operations and the start of the program that lines are assembled to. -/
def outline? (ls : List String) : Option (List Operation × Nat) :=
  (Assembly.ofStatements Assembly.threshold ""
    (Statement.ofLines "" 1 (ls.map String.toList))).toOption.map fun p => (p.code, p.main)

/-- A text runs as `q` does if its lines match those of a text with the operations
and the start of `q`, and its literals denote the constants of `q`. -/
theorem exists_runsAs {ls ls' : List String} (hunbroken : ∀ l ∈ ls, '\n' ∉ l.toList)
    (houtline : outline? ls = some (q.code, q.main))
    (hmatches : List.Forall₂ Statement.LineMatches ls ls')
    (hconstants : ls'.flatMap Statement.lineLiterals = q.constants) (source : String) :
    ∃ p, assemble source (Text.unlines ls') = .ok p ∧ p.RunsAs q := by
  obtain ⟨p, hp, hq⟩ := Option.map_eq_some_iff.mp houtline
  obtain ⟨hcode, hmain⟩ := Prod.mk.inj hq
  rw [← Statement.read_unlines hunbroken] at hp
  have hassemble : assemble "" (Text.unlines ls) = .ok p := by
    rw [assemble, assembleWithin]
    cases hr : Assembly.ofStatements Assembly.threshold ""
        (Statement.read "" (Text.unlines ls)) with
    | error reports => rw [hr] at hp; cases hp
    | ok p' => rw [hr] at hp; cases hp; rfl
  obtain ⟨p', hp', hcode', hconstants', hmain'⟩ :=
    assemble_of_matches hassemble hunbroken hmatches
  exact ⟨p', hp', hcode'.trans hcode, hconstants'.trans hconstants, hmain'.trans hmain⟩

/-! ## pieces of runs -/

/-- A run from `s` comes to `t`. -/
def Reaches (p : Program) (s t : State) : Prop :=
  ∃ n, p.after n s = .ok t

/-- A run from `s` comes to an operation whose result is not a machine
integer. -/
def Overflows (p : Program) (s : State) : Prop :=
  ∃ t op, p.Reaches s t ∧ p.step t = .error (.fault (.overflow op))

/-- Runs one after the other. -/
theorem Reaches.trans (h : p.Reaches s t) (h' : p.Reaches t u) : p.Reaches s u := by
  obtain ⟨m, hm⟩ := h
  obtain ⟨n, hn⟩ := h'
  exact ⟨m + n, (after_add_of_ok hm).trans hn⟩

/-- A run that comes to an overflow overflows. -/
theorem Reaches.overflows (h : p.Reaches s t) (h' : p.Overflows t) : p.Overflows s := by
  obtain ⟨u, op, hu, hop⟩ := h'
  exact ⟨u, op, h.trans hu, hop⟩

/-- A program halts with the result of a state that it reaches from the start. -/
theorem Reaches.haltsWith (h : p.Reaches p.initial s) (hs : s.result = some v) :
    p.HaltsWith v := by
  obtain ⟨n, hn⟩ := h
  exact ⟨n, s, hn, hs⟩

/-- A program that overflows fails with the fault for it. -/
theorem Overflows.failsWith (h : p.Overflows p.initial) : p.FailsWith "vm/overflow" := by
  obtain ⟨s, op, ⟨n, hn⟩, hop⟩ := h
  exact ⟨n, s, _, hn, hop, rfl⟩

/-- One operation. -/
theorem reaches_of_executes {op : Operation} (hrunning : s.isHalted = false)
    (hop : p.code[s.pc]? = some op) (h : op.Executes p.constants s t) : p.Reaches s t :=
  ⟨1, step_eq_ok_iff.mpr ⟨hrunning, op, hop, h⟩⟩

variable {pc : Nat} {stack env : List Value}

/-- An arithmetic operation with a machine integer as its result. -/
theorem reaches_arith {f : Arithmetic} {l r : Int} (hop : p.code[pc]? = some (.arith f))
    (hfits : Numeral.fits (f.eval l r) = true) :
    p.Reaches ⟨pc, .int r :: .int l :: stack, env, none⟩
      ⟨pc + 1, .int (f.eval l r) :: stack, env, none⟩ :=
  reaches_of_executes rfl hop (.arith rfl hfits)

/-- An arithmetic operation whose result is no machine integer. -/
theorem overflows_arith {f : Arithmetic} {l r : Int} (hop : p.code[pc]? = some (.arith f))
    (hfits : Numeral.fits (f.eval l r) = false) :
    p.Overflows ⟨pc, .int r :: .int l :: stack, env, none⟩ :=
  ⟨_, _, ⟨0, rfl⟩, (step_eq_execute rfl hop).trans
    (Operation.execute_of_stops (.overflow rfl hfits))⟩

/-- A run from `s` comes to `t` if `n` is a machine integer, and overflows
otherwise. -/
structure Computes (p : Program) (n : Int) (s t : State) : Prop where
  reaches : Numeral.fits n = true → p.Reaches s t
  overflows : Numeral.fits n = false → p.Overflows s

/-- A run in front of a computation. -/
theorem Reaches.computes {n : Int} (h : p.Reaches s t) (h' : p.Computes n t u) :
    p.Computes n s u :=
  ⟨fun hn => h.trans (h'.reaches hn), fun hn => h.overflows (h'.overflows hn)⟩

/-- A run behind a computation. -/
theorem Computes.trans {n : Int} (h : p.Computes n s t) (h' : p.Reaches t u) :
    p.Computes n s u :=
  ⟨fun hn => (h.reaches hn).trans h', h.overflows⟩

/-- Arithmetic with a computed operand, which is a machine integer whenever the
result is. -/
theorem Computes.arith {f : Arithmetic} {l r : Int}
    (h : p.Computes r s ⟨pc, .int r :: .int l :: stack, env, none⟩)
    (hop : p.code[pc]? = some (.arith f))
    (hfits : Numeral.fits (f.eval l r) = true → Numeral.fits r = true) :
    p.Computes (f.eval l r) s ⟨pc + 1, .int (f.eval l r) :: stack, env, none⟩ := by
  constructor
  · intro hresult
    exact (h.reaches (hfits hresult)).trans (reaches_arith hop hresult)
  · intro hresult
    cases hr : Numeral.fits r with
    | true => exact (h.reaches hr).overflows (overflows_arith hop hresult)
    | false => exact h.overflows hr

/-- The operations from a location on, one by one. -/
theorem code_of_front {ops : List Operation} (h : ops <+: p.code.drop pc) (i : Nat)
    {op : Operation} (hop : ops[i]? = some op) : p.code[pc + i]? = some op := by
  rw [← List.getElem?_drop, getElem?_of_front h (List.getElem?_eq_some_iff.mp hop).1, hop]

/-- **Test for zero**: a variable is compared with zero, and the branch taken if
it is something else. -/
theorem reaches_test {position index target : Nat} {n : Int}
    (hops : [.access position, .const index, .eq, .brfl target] <+: p.code.drop pc)
    (hn : Value.fromTop? env position = some (.int n))
    (hzero : p.constants[index]? = some (.int 0)) :
    (n = 0 → p.Reaches ⟨pc, stack, env, none⟩ ⟨pc + 4, stack, env, none⟩) ∧
      (n ≠ 0 → p.Reaches ⟨pc, stack, env, none⟩ ⟨target, stack, env, none⟩) := by
  have haccess : p.Reaches ⟨pc, stack, env, none⟩ ⟨pc + 1, .int n :: stack, env, none⟩ :=
    reaches_of_executes rfl (code_of_front hops 0 rfl) (.access hn)
  have hconst : p.Reaches ⟨pc + 1, .int n :: stack, env, none⟩
      ⟨pc + 2, .int 0 :: .int n :: stack, env, none⟩ :=
    reaches_of_executes rfl (code_of_front hops 1 rfl) (.const hzero)
  have heq : p.Reaches ⟨pc + 2, .int 0 :: .int n :: stack, env, none⟩
      ⟨pc + 3, .bool (Value.int n = .int 0) :: stack, env, none⟩ :=
    reaches_of_executes rfl (code_of_front hops 2 rfl) (.eq rfl rfl rfl)
  have hbrfl := code_of_front hops 3 rfl
  refine ⟨fun hn => ?_, fun hn => ?_⟩
  · rw [decide_eq_true (congrArg Value.int hn)] at heq
    exact ((haccess.trans hconst).trans heq).trans
      (reaches_of_executes rfl hbrfl (.brflTrue target rfl))
  · rw [decide_eq_false fun he => hn (Value.int.inj he)] at heq
    exact ((haccess.trans hconst).trans heq).trans
      (reaches_of_executes rfl hbrfl (.brflFalse target rfl))

/-- **Decrement**: the predecessor of a variable is put on the stack. -/
theorem reaches_decrement {position index : Nat} {n : Int}
    (hops : [.access position, .const index, .arith .sub] <+: p.code.drop pc)
    (hn : Value.fromTop? env position = some (.int (n + 1)))
    (hone : p.constants[index]? = some (.int 1)) (hfits : Numeral.fits n = true) :
    p.Reaches ⟨pc, stack, env, none⟩ ⟨pc + 3, .int n :: stack, env, none⟩ := by
  have haccess : p.Reaches ⟨pc, stack, env, none⟩ ⟨pc + 1, .int (n + 1) :: stack, env, none⟩ :=
    reaches_of_executes rfl (code_of_front hops 0 rfl) (.access hn)
  have hconst : p.Reaches ⟨pc + 1, .int (n + 1) :: stack, env, none⟩
      ⟨pc + 2, .int 1 :: .int (n + 1) :: stack, env, none⟩ :=
    reaches_of_executes rfl (code_of_front hops 1 rfl) (.const hone)
  have hpred : Arithmetic.sub.eval (n + 1) 1 = n := Int.add_sub_cancel n 1
  have hsub : p.Reaches ⟨pc + 2, .int 1 :: .int (n + 1) :: stack, env, none⟩
      ⟨pc + 3, .int (Arithmetic.sub.eval (n + 1) 1) :: stack, env, none⟩ :=
    reaches_arith (code_of_front hops 2 rfl) (by rw [hpred, hfits])
  rw [hpred] at hsub
  exact (haccess.trans hconst).trans hsub

end Program

namespace Examples

open Program

/-! ## odd numbers -/

/-- What `evenOdd` is assembled to, with a number in place of the literal. -/
def evenOddProgram (n : Int) : Program where
  code := [.label, .closures [7, 24], .access 1, .focus 2, .const 0, .applyn, .halt,
    -- even
    .label, .access 1, .const 1, .eq, .brfl 15, .label, .const 2, .br 22,
    .label, .access 2, .focus 2, .access 1, .const 3, .arith .sub, .applyn, .label, .ret,
    -- odd
    .label, .access 1, .const 4, .eq, .brfl 32, .label, .const 5, .br 39,
    .label, .access 2, .focus 1, .access 1, .const 6, .arith .sub, .applyn, .label, .ret]
  constants := [.int n, .int 0, .bool true, .int 1, .int 0, .bool false, .int 1]

/-- The environment of a call of `even` or `odd`. -/
def evenOddEnv (n : Nat) : List Value :=
  [.int n, .frame [7, 24] []]

/-- For zero, `even` comes to its return with true and `odd` with false. -/
theorem evenOddProgram_zero (m : Int) (stack : List Value) :
    (evenOddProgram m).Reaches ⟨7, stack, evenOddEnv 0, none⟩
        ⟨23, .bool true :: stack, evenOddEnv 0, none⟩ ∧
      (evenOddProgram m).Reaches ⟨24, stack, evenOddEnv 0, none⟩
        ⟨40, .bool false :: stack, evenOddEnv 0, none⟩ := by
  have heven : (evenOddProgram m).Reaches ⟨8, stack, evenOddEnv 0, none⟩
      ⟨12, stack, evenOddEnv 0, none⟩ := (reaches_test ⟨_, rfl⟩ rfl rfl).1 rfl
  have hodd : (evenOddProgram m).Reaches ⟨25, stack, evenOddEnv 0, none⟩
      ⟨29, stack, evenOddEnv 0, none⟩ := (reaches_test ⟨_, rfl⟩ rfl rfl).1 rfl
  exact ⟨.trans ⟨1, rfl⟩ (heven.trans ⟨4, rfl⟩), .trans ⟨1, rfl⟩ (hodd.trans ⟨4, rfl⟩)⟩

/-- For a successor, each of the two calls the other with the predecessor. -/
theorem evenOddProgram_succ (m : Int) {n : Nat} (hn : Numeral.fits n = true)
    (stack : List Value) :
    (evenOddProgram m).Reaches ⟨7, stack, evenOddEnv (n + 1), none⟩
        ⟨24, .returnAddress 22 :: .savedEnv (evenOddEnv (n + 1)) :: stack, evenOddEnv n, none⟩ ∧
      (evenOddProgram m).Reaches ⟨24, stack, evenOddEnv (n + 1), none⟩
        ⟨7, .returnAddress 39 :: .savedEnv (evenOddEnv (n + 1)) :: stack, evenOddEnv n, none⟩ := by
  have hne : ((n + 1 : Nat) : Int) ≠ 0 := by omega
  constructor
  · have htest : (evenOddProgram m).Reaches ⟨8, stack, evenOddEnv (n + 1), none⟩
        ⟨15, stack, evenOddEnv (n + 1), none⟩ := (reaches_test ⟨_, rfl⟩ rfl rfl).2 hne
    have hfunction : (evenOddProgram m).Reaches ⟨15, stack, evenOddEnv (n + 1), none⟩
        ⟨18, .focused 2 [7, 24] [] :: stack, evenOddEnv (n + 1), none⟩ := ⟨3, rfl⟩
    have hargument := hfunction.trans (reaches_decrement ⟨_, rfl⟩ rfl rfl hn)
    exact (Reaches.trans ⟨1, rfl⟩ htest).trans (hargument.trans ⟨1, rfl⟩)
  · have htest : (evenOddProgram m).Reaches ⟨25, stack, evenOddEnv (n + 1), none⟩
        ⟨32, stack, evenOddEnv (n + 1), none⟩ := (reaches_test ⟨_, rfl⟩ rfl rfl).2 hne
    have hfunction : (evenOddProgram m).Reaches ⟨32, stack, evenOddEnv (n + 1), none⟩
        ⟨35, .focused 1 [7, 24] [] :: stack, evenOddEnv (n + 1), none⟩ := ⟨3, rfl⟩
    have hargument := hfunction.trans (reaches_decrement ⟨_, rfl⟩ rfl rfl hn)
    exact (Reaches.trans ⟨1, rfl⟩ htest).trans (hargument.trans ⟨1, rfl⟩)

/-- A call of `even` or `odd` comes to its return with whether the argument is
even or odd. -/
theorem evenOddProgram_calls (m : Int) {n : Nat} (hn : Numeral.fits n = true)
    (stack : List Value) :
    (evenOddProgram m).Reaches ⟨7, stack, evenOddEnv n, none⟩
        ⟨23, .bool (n % 2 = 0) :: stack, evenOddEnv n, none⟩ ∧
      (evenOddProgram m).Reaches ⟨24, stack, evenOddEnv n, none⟩
        ⟨40, .bool (n % 2 = 1) :: stack, evenOddEnv n, none⟩ := by
  induction n generalizing stack with
  | zero => exact evenOddProgram_zero m stack
  | succ n ih =>
      have hn : Numeral.fits n = true := by
        rw [Numeral.fits_iff] at hn ⊢
        omega
      have heven : decide ((n + 1) % 2 = 0) = decide (n % 2 = 1) := by
        rw [decide_eq_decide]
        omega
      have hodd : decide ((n + 1) % 2 = 1) = decide (n % 2 = 0) := by
        rw [decide_eq_decide]
        omega
      rw [heven, hodd]
      obtain ⟨hcallsOdd, hcallsEven⟩ := evenOddProgram_succ m hn stack
      exact ⟨(hcallsOdd.trans (ih hn _).2).trans ⟨2, rfl⟩,
        (hcallsEven.trans (ih hn _).1).trans ⟨2, rfl⟩⟩

/-- The program of `evenOdd` halts with whether its argument is odd. -/
theorem evenOddProgram_halts {n : Nat} (hn : Numeral.fits n = true) :
    (evenOddProgram n).HaltsWith (.bool (n % 2 = 1)) := by
  have hcall : (evenOddProgram n).Reaches (evenOddProgram n).initial
      ⟨24, [.returnAddress 6, .savedEnv [.frame [7, 24] []]], evenOddEnv n, none⟩ := ⟨6, rfl⟩
  have hreturn := hcall.trans (evenOddProgram_calls n hn _).2
  exact (hreturn.trans ⟨2, rfl⟩).haltsWith rfl

/-- With any literal of a number, `evenOdd` is accepted and runs as
`evenOddProgram`: the rest of its text is the same for every literal, and is
assembled once. -/
theorem exists_runsAs_evenOddProgram {lit : String} {n : Int}
    (h : Assembly.readLiteral? lit = some (.int n)) (source : String) :
    ∃ p, assemble source (Text.unlines (evenOdd lit)) = .ok p ∧ p.RunsAs (evenOddProgram n) := by
  have hzero : Assembly.readLiteral? "0" = some (.int 0) := by decide
  have hlines : evenOdd lit =
      (evenOdd "0").take 7 ++ ("    const " ++ lit) :: (evenOdd "0").drop 8 := rfl
  obtain ⟨hunbroken, houtline, hfront, hback⟩ :
      (∀ l ∈ evenOdd "0", '\n' ∉ l.toList) ∧
      outline? (evenOdd "0") = some ((evenOddProgram 0).code, 0) ∧
      ((evenOdd "0").take 7).flatMap Statement.lineLiterals = [] ∧
      ((evenOdd "0").drop 8).flatMap Statement.lineLiterals =
        [.int 0, .bool true, .int 1, .int 0, .bool false, .int 1] := by
    decide +kernel
  refine exists_runsAs (q := evenOddProgram n) hunbroken houtline ?_ ?_ source
  · exact List.rel_append (List.forall₂_refl ((evenOdd "0").take 7))
      (.cons (Statement.lineMatches_const hzero h) (List.forall₂_refl ((evenOdd "0").drop 8)))
  · rw [hlines, List.flatMap_append, List.flatMap_cons, hfront, hback,
      Statement.lineLiterals_const h]
    rfl

/-! ## addition -/

/-- What `add` is assembled to, with numbers in place of the literals. -/
def addProgram (x y : Int) : Program where
  code := [.label, .closures [9], .access 1, .focus 1, .const 0, .applyn, .const 1, .apply, .halt,
    -- from x to the function that adds it
    .label, .closure 12, .ret,
    -- from y to the sum
    .label, .access 2, .const 2, .eq, .brfl 20, .label, .access 1, .br 31,
    .label, .const 3, .access 3, .focus 1, .access 2, .const 4, .arith .sub, .applyn,
    .access 1, .apply, .arith .add, .label, .ret]
  constants := [.int x, .int y, .int 0, .int 1, .int 1]

/-- The environment in which two numbers are added. -/
def addEnv (x : Nat) (y : Int) : List Value :=
  [.int y, .int x, .frame [9] []]

/-- Adding zero to a number leaves the number. -/
theorem addProgram_zero (x y k : Int) (stack : List Value) :
    (addProgram x y).Reaches ⟨12, stack, addEnv 0 k, none⟩
      ⟨32, .int k :: stack, addEnv 0 k, none⟩ := by
  have htest : (addProgram x y).Reaches ⟨13, stack, addEnv 0 k, none⟩
      ⟨17, stack, addEnv 0 k, none⟩ := (reaches_test ⟨_, rfl⟩ rfl rfl).1 rfl
  exact (Reaches.trans ⟨1, rfl⟩ htest).trans ⟨4, rfl⟩

/-- The predecessor is added first, above the one that is to be added to it. -/
theorem addProgram_succ (x y k : Int) {n : Nat} (hn : Numeral.fits n = true)
    (stack : List Value) :
    (addProgram x y).Reaches ⟨12, stack, addEnv (n + 1) k, none⟩
      ⟨12, .returnAddress 30 :: .savedEnv (addEnv (n + 1) k) :: .int 1 :: stack,
        addEnv n k, none⟩ := by
  have htest : (addProgram x y).Reaches ⟨13, stack, addEnv (n + 1) k, none⟩
      ⟨20, stack, addEnv (n + 1) k, none⟩ := (reaches_test ⟨_, rfl⟩ rfl rfl).2 (by omega)
  have hfunction : (addProgram x y).Reaches ⟨20, stack, addEnv (n + 1) k, none⟩
      ⟨24, .focused 1 [9] [] :: .int 1 :: stack, addEnv (n + 1) k, none⟩ := ⟨4, rfl⟩
  have hargument := hfunction.trans (reaches_decrement ⟨_, rfl⟩ rfl rfl hn)
  exact (Reaches.trans ⟨1, rfl⟩ htest).trans (hargument.trans ⟨6, rfl⟩)

/-- The second call of `add` comes to its return with the sum. -/
theorem addProgram_calls (x y : Int) {n : Nat} {k : Int} (hn : Numeral.fits n = true)
    (hk : Numeral.fits k = true) (stack : List Value) :
    (addProgram x y).Computes (n + k) ⟨12, stack, addEnv n k, none⟩
      ⟨32, .int (n + k) :: stack, addEnv n k, none⟩ := by
  induction n generalizing stack with
  | zero =>
      have hzero : ((0 : Nat) : Int) + k = k := by omega
      rw [hzero]
      exact ⟨fun _ => addProgram_zero x y k stack, fun hfits => by rw [hk] at hfits; cases hfits⟩
  | succ n ih =>
      rw [Numeral.fits_iff] at hn hk
      have hpred : Numeral.fits n = true := Numeral.fits_iff.mpr (by omega)
      have hsum : ((n + 1 : Nat) : Int) + k = Arithmetic.add.eval 1 (n + k) := by
        rw [Arithmetic.eval]
        omega
      have hoperand : Numeral.fits (Arithmetic.add.eval 1 (n + k)) = true →
          Numeral.fits (n + k) = true := by
        simp only [Arithmetic.eval, Numeral.fits_iff]
        omega
      have hcall := (addProgram_succ x y k hpred stack).computes (ih hpred _)
      rw [hsum]
      exact ((hcall.trans ⟨1, rfl⟩).arith rfl hoperand).trans ⟨1, rfl⟩

/-- The program of `add` halts with the sum, or overflows. -/
theorem addProgram_ends {x : Nat} {y : Int} (hx : Numeral.fits x = true)
    (hy : Numeral.fits y = true) :
    (Numeral.fits (x + y) = true → (addProgram x y).HaltsWith (.int (x + y))) ∧
      (Numeral.fits (x + y) = false → (addProgram x y).FailsWith "vm/overflow") := by
  have hcall : (addProgram x y).Reaches (addProgram x y).initial
      ⟨12, [.returnAddress 8, .savedEnv [.frame [9] []]], addEnv x y, none⟩ := ⟨11, rfl⟩
  have hsum := hcall.computes (addProgram_calls x y hx hy _)
  exact ⟨fun hfits => ((hsum.reaches hfits).trans ⟨2, rfl⟩).haltsWith rfl,
    fun hfits => (hsum.overflows hfits).failsWith⟩

/-- The text of `add` runs as this program, with the numbers that its literals
denote. -/
theorem exists_runsAs_addProgram {litx lity : String} {x y : Int}
    (hx : Assembly.readLiteral? litx = some (.int x))
    (hy : Assembly.readLiteral? lity = some (.int y)) (source : String) :
    ∃ p, assemble source (Text.unlines (add litx lity)) = .ok p ∧ p.RunsAs (addProgram x y) := by
  have hzero : Assembly.readLiteral? "0" = some (.int 0) := by decide
  have hlines : add litx lity =
      (add "0" "0").take 8 ++ ("    const " ++ litx ++ (" ;" ++ " applyn")) ::
        ("    const " ++ lity ++ (" ;" ++ " apply")) :: (add "0" "0").drop 10 := rfl
  obtain ⟨hunbroken, houtline, hfront, hback⟩ :
      (∀ l ∈ add "0" "0", '\n' ∉ l.toList) ∧
      outline? (add "0" "0") = some ((addProgram 0 0).code, 0) ∧
      ((add "0" "0").take 8).flatMap Statement.lineLiterals = [] ∧
      ((add "0" "0").drop 10).flatMap Statement.lineLiterals = [.int 0, .int 1, .int 1] := by
    decide +kernel
  obtain ⟨happlyn, happly⟩ :
      ('#' ∉ " applyn".toList ∧ '\n' ∉ " applyn".toList ∧ Statement.lineLiterals " applyn" = []) ∧
      '#' ∉ " apply".toList ∧ '\n' ∉ " apply".toList ∧ Statement.lineLiterals " apply" = [] := by
    decide +kernel
  refine exists_runsAs (q := addProgram x y) hunbroken houtline ?_ ?_ source
  · exact List.rel_append (List.forall₂_refl ((add "0" "0").take 8))
      (.cons (Statement.lineMatches_const_append hzero hx happlyn.1 happlyn.2.1)
        (.cons (Statement.lineMatches_const_append hzero hy happly.1 happly.2.1)
          (List.forall₂_refl ((add "0" "0").drop 10))))
  · rw [hlines, List.flatMap_append, List.flatMap_cons, List.flatMap_cons, hfront, hback,
      Statement.lineLiterals_const_append hx happlyn.1, happlyn.2.2,
      Statement.lineLiterals_const_append hy happly.1, happly.2.2]
    rfl

/-! ## factorials -/

/-- What `fact` is assembled to, with numbers in place of the literals. -/
def factProgram (m n : Int) : Program where
  code := [.label, .closures [12], .access 1, .focus 1, .const 0, .applyn,
    .access 1, .focus 1, .const 1, .applyn, .arith .mul, .halt,
    -- from a number to its factorial
    .label, .access 1, .const 2, .eq, .brfl 20, .label, .const 3, .br 29,
    .label, .access 1, .access 2, .focus 1, .access 1, .const 4, .arith .sub, .applyn,
    .arith .mul, .label, .ret]
  constants := [.int m, .int n, .int 0, .int 1, .int 1]

/-- The environment of a call of the factorial. -/
def factEnv (n : Nat) : List Value :=
  [.int n, .frame [12] []]

/-- The factorial of zero is one. -/
theorem factProgram_zero (m n : Int) (stack : List Value) :
    (factProgram m n).Reaches ⟨12, stack, factEnv 0, none⟩
      ⟨30, .int 1 :: stack, factEnv 0, none⟩ := by
  have htest : (factProgram m n).Reaches ⟨13, stack, factEnv 0, none⟩
      ⟨17, stack, factEnv 0, none⟩ := (reaches_test ⟨_, rfl⟩ rfl rfl).1 rfl
  exact (Reaches.trans ⟨1, rfl⟩ htest).trans ⟨4, rfl⟩

/-- The factorial of the predecessor comes first, above the number that it is to
be multiplied by. -/
theorem factProgram_succ (m n : Int) {k : Nat} (hk : Numeral.fits k = true)
    (stack : List Value) :
    (factProgram m n).Reaches ⟨12, stack, factEnv (k + 1), none⟩
      ⟨12, .returnAddress 28 :: .savedEnv (factEnv (k + 1)) :: .int (k + 1 : Nat) :: stack,
        factEnv k, none⟩ := by
  have htest : (factProgram m n).Reaches ⟨13, stack, factEnv (k + 1), none⟩
      ⟨20, stack, factEnv (k + 1), none⟩ := (reaches_test ⟨_, rfl⟩ rfl rfl).2 (by omega)
  have hfunction : (factProgram m n).Reaches ⟨20, stack, factEnv (k + 1), none⟩
      ⟨24, .focused 1 [12] [] :: .int (k + 1 : Nat) :: stack, factEnv (k + 1), none⟩ := ⟨4, rfl⟩
  have hargument := hfunction.trans (reaches_decrement ⟨_, rfl⟩ rfl rfl hk)
  exact (Reaches.trans ⟨1, rfl⟩ htest).trans (hargument.trans ⟨1, rfl⟩)

/-- A factor of a machine integer is one. -/
theorem fits_of_fits_mul {a b : Nat} (ha : 0 < a) (h : Numeral.fits ((a : Int) * b) = true) :
    Numeral.fits b = true := by
  have hle : b ≤ a * b := Nat.le_mul_of_pos_left b ha
  rw [← Int.natCast_mul, Numeral.fits_iff] at h
  rw [Numeral.fits_iff]
  omega

/-- A call of the factorial comes to its return with the factorial. -/
theorem factProgram_calls (m n : Int) {k : Nat} (hk : Numeral.fits k = true)
    (stack : List Value) :
    (factProgram m n).Computes k.factorial ⟨12, stack, factEnv k, none⟩
      ⟨30, .int k.factorial :: stack, factEnv k, none⟩ := by
  induction k generalizing stack with
  | zero => exact ⟨fun _ => factProgram_zero m n stack, fun hfits => absurd hfits (by decide)⟩
  | succ k ih =>
      have hpred : Numeral.fits k = true := by
        rw [Numeral.fits_iff] at hk ⊢
        omega
      have hproduct : ((k + 1).factorial : Int) =
          Arithmetic.mul.eval (k + 1 : Nat) k.factorial := by
        rw [Nat.factorial_succ, Int.natCast_mul, Arithmetic.eval]
      have hcall := (factProgram_succ m n hpred stack).computes (ih hpred _)
      rw [hproduct]
      exact ((hcall.trans ⟨1, rfl⟩).arith rfl (fits_of_fits_mul (Nat.succ_pos k))).trans ⟨1, rfl⟩

/-- The program of `fact` halts with the product of the factorials, or
overflows. -/
theorem factProgram_ends {m n : Nat} (hm : Numeral.fits m = true) (hn : Numeral.fits n = true) :
    (Numeral.fits m.factorial = true →
        Numeral.fits (m.factorial * n.factorial) = true →
        (factProgram m n).HaltsWith (.int (m.factorial * n.factorial))) ∧
      (Numeral.fits m.factorial = false ∨ Numeral.fits (m.factorial * n.factorial) = false →
        (factProgram m n).FailsWith "vm/overflow") := by
  have hfirst : (factProgram m n).Computes m.factorial (factProgram m n).initial
      ⟨12, [.returnAddress 10, .savedEnv [.frame [12] []], .int m.factorial],
        factEnv n, none⟩ := by
    have hcall : (factProgram m n).Reaches (factProgram m n).initial
        ⟨12, [.returnAddress 6, .savedEnv [.frame [12] []]], factEnv m, none⟩ := ⟨6, rfl⟩
    exact (hcall.computes (factProgram_calls m n hm _)).trans ⟨5, rfl⟩
  have hsecond : (factProgram m n).Computes n.factorial
      ⟨12, [.returnAddress 10, .savedEnv [.frame [12] []], .int m.factorial], factEnv n, none⟩
      ⟨10, [.int n.factorial, .int m.factorial], [.frame [12] []], none⟩ :=
    (factProgram_calls m n hn _).trans ⟨1, rfl⟩
  have hboth := hsecond.arith rfl (fits_of_fits_mul m.factorial_pos)
  constructor
  · intro hfits hproduct
    exact (((hfirst.reaches hfits).trans (hboth.reaches hproduct)).trans ⟨1, rfl⟩).haltsWith rfl
  · intro hfits
    cases hf : Numeral.fits m.factorial with
    | false => exact (hfirst.overflows hf).failsWith
    | true =>
        have hproduct := hfits.resolve_left (by simp [hf])
        exact ((hfirst.reaches hf).overflows (hboth.overflows hproduct)).failsWith

/-- The text of `fact` runs as this program, with the numbers that its literals
denote. -/
theorem exists_runsAs_factProgram {litm litn : String} {m n : Int}
    (hm : Assembly.readLiteral? litm = some (.int m))
    (hn : Assembly.readLiteral? litn = some (.int n)) (source : String) :
    ∃ p, assemble source (Text.unlines (fact litm litn)) = .ok p ∧ p.RunsAs (factProgram m n) := by
  have hzero : Assembly.readLiteral? "0" = some (.int 0) := by decide
  have hlines : fact litm litn =
      (fact "0" "0").take 8 ++ ("    const " ++ litm) :: (((fact "0" "0").drop 9).take 3 ++
        ("    const " ++ litn) :: (fact "0" "0").drop 13) := rfl
  obtain ⟨hunbroken, houtline, hfront, hmiddle, hback⟩ :
      (∀ l ∈ fact "0" "0", '\n' ∉ l.toList) ∧
      outline? (fact "0" "0") = some ((factProgram 0 0).code, 0) ∧
      ((fact "0" "0").take 8).flatMap Statement.lineLiterals = [] ∧
      (((fact "0" "0").drop 9).take 3).flatMap Statement.lineLiterals = [] ∧
      ((fact "0" "0").drop 13).flatMap Statement.lineLiterals = [.int 0, .int 1, .int 1] := by
    decide +kernel
  refine exists_runsAs (q := factProgram m n) hunbroken houtline ?_ ?_ source
  · exact List.rel_append (List.forall₂_refl ((fact "0" "0").take 8))
      (.cons (Statement.lineMatches_const hzero hm)
        (List.rel_append (List.forall₂_refl (((fact "0" "0").drop 9).take 3))
          (.cons (Statement.lineMatches_const hzero hn)
            (List.forall₂_refl ((fact "0" "0").drop 13)))))
  · rw [hlines, List.flatMap_append, List.flatMap_cons, List.flatMap_append, List.flatMap_cons,
      hfront, hmiddle, hback, Statement.lineLiterals_const hm, Statement.lineLiterals_const hn]
    rfl

/-! ## every argument -/

/-- **Recursion**: with any literals in them, the recursive examples are accepted
and compute their functions.

* Every machine integer has a literal, its decimal form.
* `evenOdd` halts with whether its argument is odd.
* `add` halts with the sum of a natural number and an integer if it is a machine
  integer, and overflows otherwise.
* `fact` halts with the product of two factorials if both and the product are
  machine integers, and overflows otherwise. -/
theorem recursive_examples_compute (source : String) :
    (∀ n : Int, Numeral.fits n = true →
      Assembly.readLiteral? (Numeral.decimal n) = some (.int n)) ∧
    (∀ (lit : String) (n : Nat), Assembly.readLiteral? lit = some (.int n) →
      ∃ p, assemble source (Text.unlines (evenOdd lit)) = .ok p ∧
        p.HaltsWith (.bool (n % 2 = 1))) ∧
    (∀ (litx lity : String) (x : Nat) (y : Int), Assembly.readLiteral? litx = some (.int x) →
      Assembly.readLiteral? lity = some (.int y) →
      ∃ p, assemble source (Text.unlines (add litx lity)) = .ok p ∧
        if Numeral.fits (x + y) then p.HaltsWith (.int (x + y))
        else p.FailsWith "vm/overflow") ∧
    ∀ (litm litn : String) (m n : Nat), Assembly.readLiteral? litm = some (.int m) →
      Assembly.readLiteral? litn = some (.int n) →
      ∃ p, assemble source (Text.unlines (fact litm litn)) = .ok p ∧
        if Numeral.fits m.factorial ∧ Numeral.fits n.factorial ∧
            Numeral.fits (m.factorial * n.factorial) then
          p.HaltsWith (.int (m.factorial * n.factorial))
        else p.FailsWith "vm/overflow" := by
  refine ⟨fun n hn => Assembly.readLiteral?_decimal hn, ?_, ?_, ?_⟩
  · intro lit n h
    obtain ⟨p, hp, hruns⟩ := exists_runsAs_evenOddProgram h source
    have hn : Numeral.fits n = true := Assembly.isLiteral_of_readLiteral? h
    exact ⟨p, hp, hruns.haltsWith (evenOddProgram_halts hn)⟩
  · intro litx lity x y hx hy
    obtain ⟨p, hp, hruns⟩ := exists_runsAs_addProgram hx hy source
    obtain ⟨hhalts, hfails⟩ := addProgram_ends (Assembly.isLiteral_of_readLiteral? hx)
      (Assembly.isLiteral_of_readLiteral? hy)
    refine ⟨p, hp, ?_⟩
    split
    · next hfits => exact hruns.haltsWith (hhalts hfits)
    · next hfits => exact hruns.failsWith (hfails (Bool.eq_false_iff.mpr hfits))
  · intro litm litn m n hm hn
    obtain ⟨p, hp, hruns⟩ := exists_runsAs_factProgram hm hn source
    obtain ⟨hhalts, hfails⟩ := factProgram_ends (Assembly.isLiteral_of_readLiteral? hm)
      (Assembly.isLiteral_of_readLiteral? hn)
    refine ⟨p, hp, ?_⟩
    split
    · next hfits => exact hruns.haltsWith (hhalts hfits.1 hfits.2.2)
    · next hfits =>
        -- The second factorial divides the product.
        have hsecond : Numeral.fits (m.factorial * n.factorial) = true →
            Numeral.fits n.factorial = true := fits_of_fits_mul m.factorial_pos
        refine hruns.failsWith (hfails ?_)
        grind

/-- The built-in programs: 7 is odd, 11 and 23 are 34, and the factorials of 6 and
8 are 720 and 40320.  Adding 1 to the largest machine integer overflows, and so
does the factorial of 21. -/
theorem recursive_examples_compute_builtin :
    (∃ text p, find? "evenodd" = some text ∧ assemble "test" text = .ok p ∧
      p.HaltsWith (.bool true)) ∧
    (∃ text p, find? "add" = some text ∧ assemble "test" text = .ok p ∧
      p.HaltsWith (.int 34)) ∧
    (∃ text p, find? "fact" = some text ∧ assemble "test" text = .ok p ∧
      p.HaltsWith (.int (720 * 40320))) ∧
    (∃ p, assemble "test" (Text.unlines (add "1" "9223372036854775807")) = .ok p ∧
      p.FailsWith "vm/overflow") ∧
    ∃ p, assemble "test" (Text.unlines (fact "21" "0")) = .ok p ∧ p.FailsWith "vm/overflow" := by
  obtain ⟨_, hodd, hadd, hfact⟩ := recursive_examples_compute "test"
  obtain ⟨p, hp, hseven⟩ := hodd "7" 7 (by decide)
  obtain ⟨q, hq, hsum⟩ := hadd "11" "23" 11 23 (by decide) (by decide)
  obtain ⟨r, hr, hproduct⟩ := hfact "6" "8" 6 8 (by decide) (by decide)
  obtain ⟨s, hs, hlarge⟩ := hadd "1" "9223372036854775807" 1 9223372036854775807
    (by decide) (by decide +kernel)
  obtain ⟨t, ht, htwentyOne⟩ := hfact "21" "0" 21 0 (by decide) (by decide)
  rw [if_pos (by decide)] at hsum hproduct
  rw [if_neg (by decide)] at hlarge htwentyOne
  refine ⟨⟨_, p, ?_, hp, hseven⟩, ⟨_, q, ?_, hq, hsum⟩, ⟨_, r, ?_, hr, hproduct⟩,
    ⟨s, hs, hlarge⟩, t, ht, htwentyOne⟩
  all_goals simp [find?, all]

end Examples

end SecdMachine
