import SecdMachine.Text.Words

/-!
# SecdMachine.Examples

The built-in example programs.  The first line of each is a comment that says
what it computes.  Those that compute a function of numbers are given with
the literals as parameters; the built-in program is one instance.
-/

namespace SecdMachine

/-- A built-in program. -/
structure Example where
  name : String
  /-- The lines of its text. -/
  lines : List String
deriving DecidableEq, Repr

namespace Examples

/-- Recursive addition of `x` and `y` by counting `x` down; the literals are written
into the text as they are. -/
def add (x y : String) : List String :=
  ["# letrec add x =", "#     \\y -> if x == 0 then y else 1 + add (x-1) y", "# in",
    "#     add 11 23", "", "main:", "    closures p1", "    access $1 ; focus 1",
    "    const " ++ x ++ " ; applyn", "    const " ++ y ++ " ; apply", "    halt", "", "p1:",
    "    closure p2", "    return", "", "p2:", "    access $2 ; const 0 ; eq", "    brfl fl",
    "  tr:", "    access $1", "    br end", "  fl:", "    const 1", "    access $3 ; focus 1",
    "    access $2 ; const 1 ; sub", "    applyn", "    access $1 ; apply", "    add", "  end:",
    "    return"]

/-- A function that branches on its argument. -/
def cond : List String :=
  ["# (\\x -> if x==0 then 1 else x-1) 5", "", "main:", "    closure p1", "    const 5",
    "    apply", "    halt", "", "p1:", "    access $1", "    const 0", "    eq", "    brfl fl",
    "  tr:", "    const 1", "    br end", "  fl:", "    access $1", "    const 1", "    sub",
    "  end:", "    return"]

/-- Whether `n` is odd, by two functions that call each other. -/
def evenOdd (n : String) : List String :=
  ["# letrec even n = if n == 0 then True else odd (n-1)",
    "#    and odd  n = if n == 0 then False else even (n-1)", "# in odd 7", "", "main:",
    "    closures p1 p2", "    access $1 ; focus 2", "    const " ++ n, "    applyn", "    halt",
    "", "p1:", "    access $1 ; const 0 ; eq", "    brfl fl1", "  tr1:", "    const True",
    "    br end1", "  fl1:", "    access $2 ; focus 2", "    access $1 ; const 1 ; sub",
    "    applyn", "  end1:", "    return", "", "p2:", "    access $1 ; const 0 ; eq",
    "    brfl fl2", "  tr2:", "    const False", "    br end2", "  fl2:",
    "    access $2 ; focus 1", "    access $1 ; const 1 ; sub", "    applyn", "  end2:",
    "    return"]

/-- The product of the factorials of `m` and `n`. -/
def fact (m n : String) : List String :=
  ["# letrec fact n =", "#    if n==0 then 1 else n * (fact (n-1))", "# in fact 6 * fact 8", "",
    "main:", "    closures p1", "    access $1", "    focus 1", "    const " ++ m, "    applyn",
    "    access $1", "    focus 1", "    const " ++ n, "    applyn", "    mul", "    halt", "",
    "p1:", "    access $1", "    const 0 ; eq", "    brfl fl", "  tr:", "    const 1",
    "    br end", "  fl:", "    access $1", "    access $2", "    focus 1", "    access $1",
    "    const 1", "    sub", "    applyn", "    mul", "  end:", "    return"]

/-- A function that is applied to a function. -/
def higher : List String :=
  ["# (\\f. f 12) (\\x. x+1)", "", "main:", "    closure p1", "    closure p2", "    apply",
    "    halt", "", "p1:", "    access $1", "    const 12", "    apply", "    return", "", "p2:",
    "    access $1", "    const 1", "    add", "    return"]

/-- The successor of a number. -/
def inc : List String :=
  ["# (\\x. x + 1) 5", "", "main:", "    closure p1", "    const 5", "    apply", "    halt", "",
    "p1:", "    access $1", "    const 1", "    add", "    return"]

/-- A function that calls itself without end. -/
def loop : List String :=
  ["# letrec f x = f x in f 0", "# This never halts, so it always exhausts the step budget.", "",
    "main:", "    closures p1", "    access $1", "    focus 1", "    const 0", "    applyn",
    "    halt", "", "p1:", "    access $2", "    focus 1", "    access $1", "    applyn",
    "    return"]

/-- Functions that are passed through functions. -/
def nested : List String :=
  ["# ((\\g -> ((\\f -> g f) (\\x -> \\y -> x-y))) (\\x -> x 22)) 10", "", "main:",
    "    closure p1", "    closure p2", "    apply", "    const 10", "    apply", "    halt", "",
    "p1:", "    closure p3", "    closure p4", "    apply", "    return", "", "p2:",
    "    access $1", "    const 22", "    apply", "    return", "", "p3:", "    access $2",
    "    access $1", "    apply", "    return", "", "p4:", "    closure p5", "    return", "",
    "p5:", "    access $2", "    access $1", "    sub", "    return"]

/-- A function that returns a function. -/
def sub : List String :=
  ["# (\\f. f 22 10) (\\x -> \\y -> x-y)", "", "main:", "    closure p1", "    closure p2",
    "    apply", "    halt", "", "p1:", "    access $1", "    const 22", "    apply",
    "    const 10", "    apply", "    return", "", "p2:", "    closure p3", "    return", "",
    "p3:", "    access $2", "    access $1", "    sub", "    return"]

/-- The built-in programs, in the order of their names. -/
def all : List Example :=
  [⟨"add", add "11" "23"⟩, ⟨"cond", cond⟩, ⟨"evenodd", evenOdd "7"⟩, ⟨"fact", fact "6" "8"⟩,
    ⟨"higher", higher⟩, ⟨"inc", inc⟩, ⟨"loop", loop⟩, ⟨"nested", nested⟩, ⟨"sub", sub⟩]

/-- The names of the built-in programs. -/
def names : List String :=
  all.map Example.name

/-- The text of the built-in program with a name. -/
def find? (name : String) : Option String :=
  (all.find? (·.name = name)).map fun e => Text.unlines e.lines

/-- The first line of a program text without the number sign in front. -/
def firstComment (text : String) : String :=
  match (Text.lines text.toList).headD [] with
  | '#' :: cs => String.ofList (Text.trim cs)
  | cs => String.ofList (Text.trim cs)

/-- What the built-in program with a name computes, empty if there is none. -/
def summary (name : String) : String :=
  ((find? name).map firstComment).getD ""

end Examples

end SecdMachine
