/-!
# SecdMachine.Value

The values of the machine: integers, booleans, functions, and the
bookkeeping of calls, which lives on the same stack as everything else.

Environments and stacks are lists of values with the most recent one first,
so pushing and binding are `List.cons`.  Their rendered forms run from the
bottom up and so reverse them.
-/

namespace SecdMachine

/-- A value of the machine.

* `closure` is an entry point with the environment that it was made in.
* `frame` is a group of mutually recursive entry points that share one
  environment.
* `focused` is a frame with one of its entry points selected, counting from 1.
* `returnAddress` and `savedEnv` are what a call leaves on the stack for its
  return.
* `undefined` and `unknown` are values that no program produces: without a
  type, and with a type that the machine does not know. -/
inductive Value where
  | int (n : Int)
  | bool (b : Bool)
  | closure (entry : Nat) (env : List Value)
  | frame (entries : List Nat) (env : List Value)
  | focused (index : Int) (entries : List Nat) (env : List Value)
  | returnAddress (location : Nat)
  | savedEnv (env : List Value)
  | undefined
  | unknown
deriving Repr, Inhabited

namespace Value

/-- The name of a value's type, as error messages and documents give it. -/
def typeName : Value → String
  | .int _ => "int"
  | .bool _ => "bool"
  | .closure _ _ => "closure"
  | .frame _ _ => "recursive frame"
  | .focused _ _ _ => "focused function"
  | .returnAddress _ => "return address"
  | .savedEnv _ => "saved environment"
  | .undefined => "undefined"
  | .unknown => "unknown"

/-- Whether a value can be compared: the integers and the booleans. -/
def isScalar : Value → Bool
  | .int _ | .bool _ => true
  | _ => false

/-- The value `n` places from the top of a stack or environment, counting the
top as 1. -/
def fromTop? (vs : List Value) (n : Int) : Option Value :=
  if n < 1 then none else vs[(n - 1).toNat]?

/-! ## Equality -/

mutual
/-- Structural equality of values. -/
def beq : Value → Value → Bool
  | .int m, .int n => m == n
  | .bool a, .bool b => a == b
  | .closure p env, .closure q env' => p == q && beqAll env env'
  | .frame fs env, .frame gs env' => fs == gs && beqAll env env'
  | .focused i fs env, .focused j gs env' => i == j && fs == gs && beqAll env env'
  | .returnAddress p, .returnAddress q => p == q
  | .savedEnv env, .savedEnv env' => beqAll env env'
  | .undefined, .undefined => true
  | .unknown, .unknown => true
  | _, _ => false

/-- Structural equality of lists of values. -/
def beqAll : List Value → List Value → Bool
  | [], [] => true
  | v :: vs, w :: ws => beq v w && beqAll vs ws
  | _, _ => false
end

mutual
theorem beq_self : (v : Value) → beq v v = true
  | .int _ | .bool _ | .returnAddress _ | .undefined | .unknown => by simp [beq]
  | .closure _ env | .frame _ env | .focused _ _ env | .savedEnv env => by
      simp [beq, beqAll_self env]

theorem beqAll_self : (vs : List Value) → beqAll vs vs = true
  | [] => rfl
  | v :: vs => by simp [beqAll, beq_self v, beqAll_self vs]
end

mutual
theorem eq_of_beq : {v w : Value} → beq v w = true → v = w
  | .int _, w, h => by cases w <;> simp_all [beq]
  | .bool _, w, h => by cases w <;> simp_all [beq]
  | .closure _ env, w, h => by
      cases w <;> simp [beq] at h
      case closure env' => rw [h.1, eq_of_beqAll h.2]
  | .frame _ env, w, h => by
      cases w <;> simp [beq] at h
      case frame env' => rw [h.1, eq_of_beqAll h.2]
  | .focused _ _ env, w, h => by
      cases w <;> simp [beq] at h
      case focused env' => rw [h.1.1, h.1.2, eq_of_beqAll h.2]
  | .returnAddress _, w, h => by cases w <;> simp_all [beq]
  | .savedEnv env, w, h => by
      cases w <;> simp [beq] at h
      case savedEnv env' => rw [eq_of_beqAll h]
  | .undefined, w, h => by cases w <;> simp_all [beq]
  | .unknown, w, h => by cases w <;> simp_all [beq]

theorem eq_of_beqAll : {vs ws : List Value} → beqAll vs ws = true → vs = ws
  | [], ws, h => by cases ws <;> simp_all [beqAll]
  | v :: vs, ws, h => by
      cases ws with
      | nil => simp [beqAll] at h
      | cons w ws =>
        simp only [beqAll, Bool.and_eq_true] at h
        rw [eq_of_beq h.1, eq_of_beqAll h.2]
end

instance : DecidableEq Value := fun v w =>
  if h : beq v w = true then .isTrue (eq_of_beq h)
  else .isFalse fun he => h (he ▸ beq_self v)

end Value

end SecdMachine
