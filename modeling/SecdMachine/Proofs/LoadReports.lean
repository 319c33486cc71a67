import Mathlib.Data.List.Perm.Basic
import SecdMachine.Proofs.Acceptance

/-!
# SecdMachine.Proofs.LoadReports

What the reports of a text that is refused say.

The assembly finds the faults of statements in three rounds, with a table of labels
and a count that it carries along, and it may give up in the last round.  Here the
faults of a statement are said without the rounds, from what stands around it:

1. `characterFaults` looks at the statement alone;
2. `labelFaults` looks at the statements before it too;
3. `operationFaults` looks at the names of all labels too.

These are the faults that the rounds report, each in the order of the statements
(`reports_labelsFrom`, `reports_assembleAll_take`), and a statement has one exactly
if it breaks the grammar where it stands (`faultsAt_ne_nil_iff`).

The last round goes on as long as the reports so far are below the limit, so that it
comes to the first statement before which they are not, and stops there.  What it
leaves out is the rest of `allReports` (`load_reports_exact`).
-/

namespace SecdMachine

/-! ## the faults of a statement -/

/-- Whether an opcode of a shape may have a number of arguments. -/
def Opcode.Shape.admits : Opcode.Shape → Nat → Bool
  | .none, n => n == 0
  | .labels, n => 0 < n
  | .literal, n | .position, n | .index, n | .label, n => n == 1

/-- How many arguments an opcode of a shape takes, in words. -/
def Opcode.Shape.expected : Opcode.Shape → String
  | .none => "no arguments"
  | .labels => "at least one argument"
  | .literal | .position | .index | .label => "one argument"

/-- What is wrong with one argument of an opcode, where `names` are the labels that
are defined. -/
def Opcode.Shape.fault? (names : List String) : Opcode.Shape → String → Option Fault
  | .none, _ => .none
  | .literal, a => if (Assembly.readLiteral? a).isSome then .none else some (.constArgument a)
  | .position, a =>
    if a.toList.head? = some '$' ∧ Numeral.IsPosition a.toList.tail then .none
    else some (.accessArgument a)
  | .index, a => if Numeral.IsPosition a.toList then .none else some (.focusArgument a)
  | .label, a | .labels, a => if a ∈ names then .none else some (.labelUndefined a)

/-- What is wrong with the arguments of an opcode: their number, or else those of
them that have a fault. -/
def Opcode.faults (names : List String) (o : Opcode) (args : List String) : List Fault :=
  if o.shape.admits args.length then args.filterMap (o.shape.fault? names)
  else [.argumentCount o.mnemonic o.shape.expected args.length]

namespace Statement

/-- Whether a statement defines the label with a name. -/
def defines (name : String) (s : Statement) : Bool :=
  s.kind = .label ∧ s.labelName = name

/-- A statement defines a name if it is the label of this name. -/
theorem defines_iff {name : String} {s : Statement} :
    s.defines name = true ↔ s.kind = .label ∧ s.labelName = name := by
  simp [defines]

/-- The first round: one fault for a statement with an illegal character. -/
def characterFaults (s : Statement) : List Fault :=
  (illegalChar? s.text.toList).toList.map .illegalCharacter

/-- The second round: a label statement, with others before it, whose name is no
identifier or has been defined before. -/
def labelFaults (before : List Statement) (s : Statement) : List Fault :=
  if s.kind = .label then
    if Assembly.isIdentifier s.labelName.toList then
      (before.find? (defines s.labelName)).toList.map fun first =>
        .labelRedefined s.labelName first.line
    else [.labelMalformed s.text]
  else []

/-- The last round: an operation that begins with no opcode, or whose arguments
have faults. -/
def operationFaults (names : List String) (s : Statement) : List Fault :=
  if s.kind = .operation then
    match Opcode.ofMnemonic? s.mnemonic with
    | some o => o.faults names s.arguments
    | none => [.opcodeUnknown s.mnemonic]
  else []

end Statement

namespace Assembly

/-- The names that are defined: those of the label statements that are
identifiers. -/
def validNames (ss : List Statement) : List String :=
  (labelledNames ss).filter fun name => isIdentifier name.toList

/-- The faults of the statement at place `i`. -/
def faultsAt (ss : List Statement) (i : Nat) (s : Statement) : List Fault :=
  s.characterFaults ++ s.labelFaults (ss.take i) ++ s.operationFaults (validNames ss)

/-- `Breaks ss i s`: the statement `s`, at place `i`, is not one of the grammar.  It
holds an illegal character; or it is a label, but not an identifier, or one that
was defined before; or it is no opcode with arguments of its shape, given the labels
that are defined. -/
def Breaks (ss : List Statement) (i : Nat) (s : Statement) : Prop :=
  (∃ c ∈ s.text.toList, Statement.isLegal c = false) ∨
  (s.kind = .label ∧
    (isIdentifier s.labelName.toList = false ∨ s.labelName ∈ validNames (ss.take i))) ∨
  (s.kind = .operation ∧ ¬ s.IsOperation (validNames ss))

/-! ## reports -/

/-- The reports of the faults of statements, in order, where the first statement has
place `i`. -/
def reported (f : Nat → Statement → List Fault) (i : Nat) (ss : List Statement) : List Report :=
  (ss.zipIdx i).flatMap fun e => (f e.2 e.1).map (reportAt e.1)

/-- The reports of the first round. -/
def characterReports (ss : List Statement) : List Report :=
  reported (fun _ s => s.characterFaults) 0 ss

/-- The reports of the second round. -/
def labelReports (ss : List Statement) : List Report :=
  reported (fun i s => s.labelFaults (ss.take i)) 0 ss

/-- The reports of the last round, if it does not give up. -/
def operationReports (names : List String) (ss : List Statement) : List Report :=
  reported (fun _ s => s.operationFaults names) 0 ss

/-- The reports that are there when the last round comes to place `j`. -/
def reportsBefore (j : Nat) (ss : List Statement) : List Report :=
  characterReports ss ++ labelReports ss ++ operationReports (validNames ss) (ss.take j)

/-- The reports of all faults, in the order of the rounds. -/
def allReports (ss : List Statement) : List Report :=
  characterReports ss ++ labelReports ss ++ operationReports (validNames ss) ss

/-- The report that no label is `main`, if none is. -/
def mainReports (source : String) (ss : List Statement) : List Report :=
  if mainLabel ∈ validNames ss then [] else [mainReport source]

/-- What went wrong, which is nothing if there is a result. -/
def errorsOf {ε α : Type} : Except (List ε) α → List ε
  | .ok _ => []
  | .error es => es

variable {f : Nat → Statement → List Fault} {labels : List Label} {pool limit : Nat}
  {names : List String} {s : Statement} {ss : List Statement} {r : Report}

/-- The reports of the first statement come first. -/
theorem reported_cons (i : Nat) :
    reported f i (s :: ss) = (f i s).map (reportAt s) ++ reported f (i + 1) ss := by
  rw [reported, List.zipIdx_cons, List.flatMap_cons, reported]

/-- Where the faults of a statement do not depend on its place, neither do the
reports. -/
theorem reported_const (h : Statement → List Fault) (i : Nat) (ss : List Statement) :
    reported (fun _ s => h s) i ss = ss.flatMap fun s => (h s).map (reportAt s) := by
  induction ss generalizing i with
  | nil => rfl
  | cons s ss ih => rw [reported_cons, ih, List.flatMap_cons]

/-- In the last round, too, the reports of the first statement come first. -/
theorem operationReports_cons (names : List String) (s : Statement) (ss : List Statement) :
    operationReports names (s :: ss) =
      (s.operationFaults names).map (reportAt s) ++ operationReports names ss := by
  rw [operationReports, operationReports, reported_const, reported_const, List.flatMap_cons]

/-- What is reported is a fault of some statement, reported at this one. -/
theorem mem_reported :
    r ∈ reported f 0 ss ↔ ∃ i s, ss[i]? = some s ∧ ∃ fault ∈ f i s, r = reportAt s fault := by
  simp only [reported, List.mem_flatMap, List.mem_map, Prod.exists,
    List.mk_mem_zipIdx_iff_getElem?]
  constructor
  · rintro ⟨s, i, hs, fault, hfault, rfl⟩
    exact ⟨i, s, hs, fault, hfault, rfl⟩
  · rintro ⟨i, s, hs, fault, hfault, rfl⟩
    exact ⟨s, i, hs, fault, hfault, rfl⟩

/-- Two rounds report together what one round of both checks does, in another order. -/
theorem reported_append_perm (f g : Nat → Statement → List Fault) (ss : List Statement) :
    (reported f 0 ss ++ reported g 0 ss).Perm (reported (fun i s => f i s ++ g i s) 0 ss) := by
  simp only [reported, List.map_append]
  exact List.flatMap_append_perm _ _ _

/-- What is reported of the first statements comes before the other reports. -/
theorem reported_take_isPrefix (f : Nat → Statement → List Fault) (j : Nat)
    (ss : List Statement) : reported f 0 (ss.take j) <+: reported f 0 ss := by
  have hsplit : ss.zipIdx = (ss.take j).zipIdx ++ (ss.drop j).zipIdx (0 + (ss.take j).length) := by
    rw [← List.zipIdx_append, List.take_append_drop]
  rw [reported, reported, hsplit, List.flatMap_append]
  exact List.prefix_append _ _

/-- The reports that are there at any place of the last round are the first of all. -/
theorem reportsBefore_isPrefix (j : Nat) (ss : List Statement) :
    reportsBefore j ss <+: allReports ss :=
  (List.prefix_append_right_inj _).mpr (reported_take_isPrefix _ j ss)

/-- The reports of the rounds are those of the statements. -/
theorem allReports_perm (ss : List Statement) :
    (allReports ss).Perm (reported (faultsAt ss) 0 ss) :=
  ((reported_append_perm _ _ ss).append_right _).trans (reported_append_perm _ _ ss)

/-! ## the first round -/

/-- **First round**: illegal characters are reported by the statements that hold
them. -/
theorem illegalReports_eq (ss : List Statement) : illegalReports ss = characterReports ss := by
  rw [characterReports, reported_const, illegalReports, List.filterMap_eq_flatMap_toList]
  refine List.flatMap_congr fun s _ => ?_
  rw [illegalReport?, Statement.characterFaults, Option.toList_map, List.map_map]
  rfl

/-! ## the second round -/

/-- A label whose name is an identifier adds it to the names. -/
theorem validNames_cons (s : Statement) (ss : List Statement) :
    validNames (s :: ss) =
      if s.kind = .label ∧ isIdentifier s.labelName.toList = true then
        s.labelName :: validNames ss
      else validNames ss := by
  rw [validNames, labelledNames_cons]
  by_cases hkind : s.kind = .label
  · by_cases hname : isIdentifier s.labelName.toList = true
    · simp [hkind, hname, validNames]
    · simp [hkind, hname, validNames]
  · simp [hkind, validNames]

/-- The names that are defined are the identifiers of labels. -/
theorem mem_validNames {name : String} :
    name ∈ validNames ss ↔
      isIdentifier name.toList = true ∧ ∃ s ∈ ss, s.defines name = true := by
  simp only [validNames, labelledNames, List.mem_filter, List.mem_map, Statement.defines_iff,
    decide_eq_true_eq]
  constructor
  · rintro ⟨⟨s, ⟨hs, hkind⟩, hname⟩, hidentifier⟩
    exact ⟨hidentifier, s, hs, hkind, hname⟩
  · rintro ⟨hidentifier, s, hs, hkind, hname⟩
    exact ⟨⟨s, ⟨hs, hkind⟩, hname⟩, hidentifier⟩

/-- `Knows before known`: the table `known` holds the first line of every name that
is defined in the statements `before`. -/
def Knows (before : List Statement) (known : List Label) : Prop :=
  ∀ name, isIdentifier name.toList = true →
    (findLabel? known name).map Label.line =
      (before.find? (Statement.defines name)).map Statement.line

variable {before : List Statement} {known : List Label}

/-- A statement that defines nothing new leaves the table as it is. -/
theorem Knows.skip (h : Knows before known)
    (hs : s.kind = .label → isIdentifier s.labelName.toList = true →
      (findLabel? known s.labelName).isSome = true) : Knows (before ++ [s]) known := by
  intro name hname
  rw [List.find?_append, h name hname]
  cases hfind : before.find? (Statement.defines name) with
  | some first => rfl
  | none =>
      have hnone : findLabel? known name = none := by simpa [hfind] using h name hname
      have hnot : s.defines name = false := by
        refine Bool.eq_false_iff.mpr fun hdefines => ?_
        obtain ⟨hkind, rfl⟩ := Statement.defines_iff.mp hdefines
        simpa [hnone] using hs hkind hname
      simp [hnot]

/-- The table with the name that a statement defines first. -/
theorem Knows.define (h : Knows before known) (hkind : s.kind = .label) (i : Nat) :
    Knows (before ++ [s]) (known ++ [⟨s.labelName, i, s.line⟩]) := by
  intro name hname
  have hhere := h name hname
  rw [findLabel?] at hhere ⊢
  rw [List.find?_append, List.find?_append, Option.map_or, Option.map_or, hhere]
  refine congrArg _ ?_
  by_cases heq : s.labelName = name
  · simp [Statement.defines, hkind, heq]
  · simp [Statement.defines, heq]

/-- Only labels have faults of labels. -/
theorem labelFaults_of_ne (hkind : s.kind ≠ .label) : s.labelFaults before = [] := by
  rw [Statement.labelFaults, if_neg hkind]

/-- With a table of the names before it, a label is at fault if the table has its
name. -/
theorem labelFaults_of_knows (h : Knows before known) (hkind : s.kind = .label)
    (hname : isIdentifier s.labelName.toList = true) :
    s.labelFaults before =
      (findLabel? known s.labelName).toList.map fun l => .labelRedefined s.labelName l.line := by
  have hlines := congrArg Option.toList (h _ hname)
  rw [Option.toList_map, Option.toList_map] at hlines
  have hfaults := congrArg (List.map fun line : Nat => Fault.labelRedefined s.labelName line) hlines
  rw [List.map_map, List.map_map] at hfaults
  rw [Statement.labelFaults, if_pos hkind, if_pos hname]
  exact hfaults.symm

/-- **Second round**: with a table of the names before them, the labels among
statements are reported by what stands before each. -/
theorem reports_labelsFrom_of_knows (h : Knows before known) :
    (labelsFrom before.length known ss).reports =
      reported (fun i s => s.labelFaults ((before ++ ss).take i)) before.length ss := by
  induction ss generalizing before known with
  | nil => rfl
  | cons s ss ih =>
      -- The statements before the rest are those before `s`, and `s`.
      have hrest {known : List Label} (h : Knows (before ++ [s]) known) :
          (labelsFrom (before.length + 1) known ss).reports =
            reported (fun i s' => s'.labelFaults ((before ++ s :: ss).take i))
              (before.length + 1) ss := by
        simpa using ih h
      rw [reported_cons, List.take_left, labelsFrom]
      by_cases hkind : s.kind = .label
      · rw [if_pos hkind]
        by_cases hname : isIdentifier s.labelName.toList = true
        · rw [if_pos hname, labelFaults_of_knows h hkind hname]
          cases hfind : findLabel? known s.labelName with
          | some first =>
              have hknown : Knows (before ++ [s]) known := h.skip fun _ _ => by rw [hfind]; rfl
              simp [hrest hknown]
          | none => simp [hrest (h.define hkind before.length)]
        · have hknown : Knows (before ++ [s]) known := h.skip fun _ h => absurd h hname
          rw [if_neg hname, Statement.labelFaults, if_pos hkind, if_neg hname]
          simp [hrest hknown]
      · have hknown : Knows (before ++ [s]) known := h.skip fun h => absurd h hkind
        rw [if_neg hkind, labelFaults_of_ne hkind, hrest hknown]
        rfl

/-- The labels of a text are reported by what stands before each. -/
theorem reports_labelsFrom (ss : List Statement) :
    (labelsFrom 0 [] ss).reports = labelReports ss := by
  have hstart : Knows [] [] := fun _ _ => rfl
  exact reports_labelsFrom_of_knows hstart

/-- The table of the second round has the names that are defined. -/
theorem mem_names_labelsFrom {name : String} {i : Nat} :
    name ∈ (labelsFrom i known ss).labels.map Label.name ↔
      name ∈ known.map Label.name ∨ name ∈ validNames ss := by
  induction ss generalizing i known with
  | nil => simp [labelsFrom, validNames, labelledNames]
  | cons s ss ih =>
      rw [labelsFrom, validNames_cons]
      by_cases hkind : s.kind = .label
      · by_cases hname : isIdentifier s.labelName.toList = true
        · simp only [hkind, hname, and_self, if_true]
          cases hfind : findLabel? known s.labelName with
          | some first =>
              have hknown := exists_findLabel?_iff.mp ⟨first, hfind⟩
              rw [ih, List.mem_cons]
              constructor
              · exact Or.imp_right .inr
              · rintro (hmem | rfl | hmem)
                exacts [.inl hmem, .inl hknown, .inr hmem]
          | none =>
              rw [ih, List.map_append, List.mem_append, List.map_singleton, List.mem_singleton,
                List.mem_cons, or_assoc]
        · simp only [hkind, hname, if_true]
          exact ih
      · simp only [hkind, false_and, if_false]
        exact ih

/-- The table of a text has the names that are defined in it. -/
theorem mem_names_labelling {name : String} :
    name ∈ (labelsFrom 0 [] ss).labels.map Label.name ↔ name ∈ validNames ss := by
  rw [mem_names_labelsFrom, List.map_nil]
  simp

/-! ## the last round -/

/-- The labels that a list cannot find are those that are not defined. -/
theorem errorsOf_locations (labels : List Label) (args : List String) :
    errorsOf (locations labels args) =
      args.filterMap (Opcode.Shape.labels.fault? (labels.map Label.name)) := by
  induction args with
  | nil => rfl
  | cons a args ih =>
      rw [locations, List.filterMap_cons, ← ih, Opcode.Shape.fault?]
      cases hfind : findLabel? labels a with
      | none =>
          rw [if_neg (findLabel?_eq_none_iff.mp hfind)]
          cases locations labels args with
          | ok ls => rfl
          | error fs => rfl
      | some l =>
          rw [if_pos (exists_findLabel?_iff.mp ⟨l, hfind⟩)]
          cases locations labels args with
          | ok ls => rfl
          | error fs => rfl

theorem errorsOf_map {ε α β : Type} (x : Except (List ε) α) (h : α → β) :
    errorsOf (x.map h) = errorsOf x := by
  cases x <;> rfl

/-- A text reads as a position if it is spelled as one. -/
theorem isSome_positive?_iff {cs : List Char} :
    (Numeral.positive? cs).isSome = true ↔ Numeral.IsPosition cs := by
  simp [Option.isSome_iff_exists, Numeral.positive?_eq_some_iff]

/-- A position in a list is written with a dollar sign. -/
theorem isSome_readPosition?_iff {a : String} :
    (readPosition? a).isSome = true ↔
      a.toList.head? = some '$' ∧ (Numeral.positive? a.toList.tail).isSome = true := by
  simp [Option.isSome_iff_exists, readPosition?_eq_some_iff]

/-- A table finds the names that it has. -/
theorem isSome_findLabel?_iff {name : String} :
    (findLabel? labels name).isSome = true ↔ name ∈ labels.map Label.name := by
  rw [Option.isSome_iff_exists, exists_findLabel?_iff]

/-- With a wrong number of arguments, this number is all that is reported. -/
theorem assembleOpcode_of_not_admits {o : Opcode} {args : List String}
    (h : o.shape.admits args.length = false) :
    assembleOpcode labels pool o args =
      .error [.argumentCount o.mnemonic o.shape.expected args.length] := by
  unfold assembleOpcode
  match args with
  | [] => cases ho : o.shape <;> simp_all [Opcode.Shape.admits, Opcode.Shape.expected]
  | [_] => cases ho : o.shape <;> simp_all [Opcode.Shape.admits, Opcode.Shape.expected]
  | _ :: _ :: _ => cases ho : o.shape <;> simp_all [Opcode.Shape.admits, Opcode.Shape.expected]

/-- What is reported of an opcode are the faults of its arguments. -/
theorem errorsOf_assembleOpcode (labels : List Label) (pool : Nat) (o : Opcode)
    (args : List String) :
    errorsOf (assembleOpcode labels pool o args) = o.faults (labels.map Label.name) args := by
  unfold Opcode.faults
  cases hcount : o.shape.admits args.length with
  | false => rw [assembleOpcode_of_not_admits hcount]; rfl
  | true =>
      rw [if_pos rfl]
      cases ho : o.shape with
      | none =>
          rw [ho] at hcount
          obtain rfl : args = [] := by simpa [Opcode.Shape.admits] using hcount
          simp [assembleOpcode, ho, errorsOf]
      | labels =>
          rw [ho] at hcount
          cases args with
          | nil => cases hcount
          | cons a args => simp only [assembleOpcode, ho, errorsOf_map, errorsOf_locations]
      | literal | position | index | label =>
          rw [ho] at hcount
          obtain ⟨a, rfl⟩ := List.length_eq_one_iff.mp (beq_iff_eq.mp hcount)
          simp only [assembleOpcode, ho, List.filterMap_cons, List.filterMap_nil,
            Opcode.Shape.fault?, ← isSome_readPosition?_iff, ← isSome_positive?_iff,
            ← isSome_findLabel?_iff]
          split
          · next hread => simp [hread, errorsOf]
          · next hread => simp [hread, errorsOf]

/-- **Statements**: what is reported of a statement are the faults of its
operation. -/
theorem errorsOf_assembleStatement (labels : List Label) (pool : Nat) (s : Statement) :
    errorsOf (assembleStatement labels pool s) = s.operationFaults (labels.map Label.name) := by
  unfold assembleStatement Statement.operationFaults
  cases s.kind with
  | label => rfl
  | illegal => rfl
  | operation =>
      simp only [if_true]
      cases Opcode.ofMnemonic? s.mnemonic with
      | none => rfl
      | some o => exact errorsOf_assembleOpcode labels pool o s.arguments

/-- The faults of an operation depend on which names there are, not on their order. -/
theorem operationFaults_congr {names' : List String} (h : ∀ name, name ∈ names ↔ name ∈ names')
    (s : Statement) : s.operationFaults names = s.operationFaults names' := by
  have hfault (sh : Opcode.Shape) : sh.fault? names = sh.fault? names' := by
    funext a
    cases sh <;> simp only [Opcode.Shape.fault?, h]
  simp only [Statement.operationFaults, Opcode.faults, hfault]

/-- An operation has no fault exactly if it is an opcode with its arguments. -/
theorem operationFaults_eq_nil_iff :
    s.operationFaults names = [] ↔ (s.kind = .operation → s.IsOperation names) := by
  -- A table with these names and any locations.
  have hnames : (names.map fun name => (⟨name, 0, 0⟩ : Label)).map Label.name = names := by
    rw [List.map_map]
    exact List.map_id names
  have hok (labels : List Label) : (∃ t, assembleStatement labels 0 s = .ok t) ↔ _ :=
    exists_assembleStatement_iff
  rw [← hnames, ← errorsOf_assembleStatement _ 0, ← hok]
  generalize hresult : assembleStatement _ 0 s = result
  cases result with
  | ok t => exact ⟨fun _ => ⟨t, rfl⟩, fun _ => rfl⟩
  | error fs => exact ⟨fun h => absurd h (ne_nil_of_assembleStatement hresult), nofun⟩

/-- **Step case**: below the limit, the last round reports the faults of the next
statement and goes on. -/
theorem reports_assembleAll_cons (labels : List Label) (pool : Nat) (s : Statement)
    (ss : List Statement) {found : Nat} (hfound : found < limit) :
    ∃ pool', (assembleAll limit labels found pool (s :: ss)).reports =
      (s.operationFaults (labels.map Label.name)).map (reportAt s) ++
        (assembleAll limit labels
          (found + (s.operationFaults (labels.map Label.name)).length) pool' ss).reports := by
  rw [← errorsOf_assembleStatement labels pool, assembleAll, if_neg (Nat.not_le.mpr hfound)]
  cases assembleStatement labels pool s with
  | error fs => exact ⟨pool, rfl⟩
  | ok t => exact ⟨pool + t.constants.length, rfl⟩

/-- **Run case**: as long as the reports are below the limit, the last round goes
on. -/
theorem reports_assembleAll_take (pool : Nat) {j found : Nat}
    (h : ∀ i < j,
      found + (operationReports (labels.map Label.name) (ss.take i)).length < limit) :
    ∃ pool', (assembleAll limit labels found pool ss).reports =
      operationReports (labels.map Label.name) (ss.take j) ++
        (assembleAll limit labels
          (found + (operationReports (labels.map Label.name) (ss.take j)).length) pool'
          (ss.drop j)).reports := by
  induction ss generalizing j found pool with
  | nil => exact ⟨pool, by simp [operationReports, reported]⟩
  | cons s ss ih =>
      cases j with
      | zero => exact ⟨pool, by simp [operationReports, reported]⟩
      | succ j =>
          have hhere : found < limit := Nat.lt_of_le_of_lt (Nat.le_add_right _ _) (h 0 j.succ_pos)
          obtain ⟨pool₁, hstep⟩ := reports_assembleAll_cons labels pool s ss hhere
          have hlater : ∀ i < j, found + (s.operationFaults (labels.map Label.name)).length +
              (operationReports (labels.map Label.name) (ss.take i)).length < limit := by
            intro i hi
            have hnext := h (i + 1) (Nat.succ_lt_succ hi)
            rwa [List.take_succ_cons, operationReports_cons, List.length_append, List.length_map,
              ← Nat.add_assoc] at hnext
          obtain ⟨pool₂, hrest⟩ := ih pool₁ hlater
          refine ⟨pool₂, ?_⟩
          rw [hstep, hrest, List.take_succ_cons, List.drop_succ_cons, operationReports_cons,
            List.length_append, List.length_map, List.append_assoc, Nat.add_assoc]

/-! ## programs -/

/-- The reports of the last round depend on which names there are, not on their
order. -/
theorem operationReports_congr {names' : List String}
    (h : ∀ name, name ∈ names ↔ name ∈ names') (ss : List Statement) :
    operationReports names ss = operationReports names' ss := by
  simp only [operationReports, operationFaults_congr h]

/-- Everything that is reported, round by round. -/
theorem errorsOf_ofStatements (limit : Nat) (source : String) (ss : List Statement) :
    errorsOf (ofStatements limit source ss) =
      characterReports ss ++ labelReports ss ++
        (assembleAll limit (labelsFrom 0 [] ss).labels
          (characterReports ss ++ labelReports ss).length 0 ss).reports ++
        mainReports source ss := by
  have hmain : findLabel? (labelsFrom 0 [] ss).labels mainLabel = none ↔
      mainLabel ∉ validNames ss := by
    rw [findLabel?_eq_none_iff, mem_names_labelling]
  unfold ofStatements
  simp only [illegalReports_eq, reports_labelsFrom]
  cases hfind : findLabel? (labelsFrom 0 [] ss).labels mainLabel with
  | none => rw [mainReports, if_neg (hmain.mp hfind)]; rfl
  | some main =>
      have hdefined : mainLabel ∈ validNames ss := by
        by_contra hnot
        rw [hmain.mpr hnot] at hfind
        cases hfind
      rw [mainReports, if_pos hdefined, List.append_nil]
      dsimp only
      split
      · next hempty => exact (List.isEmpty_iff.mp hempty).symm
      · rfl

/-- Up to a place, as long as the reports are below the limit, all of them are
there. -/
theorem errorsOf_ofStatements_take (source : String) {j : Nat}
    (h : ∀ i < j, (reportsBefore i ss).length < limit) :
    ∃ pool, errorsOf (ofStatements limit source ss) =
      reportsBefore j ss ++
        (assembleAll limit (labelsFrom 0 [] ss).labels (reportsBefore j ss).length pool
          (ss.drop j)).reports ++
        mainReports source ss := by
  have hbefore (i : Nat) : reportsBefore i ss = characterReports ss ++ labelReports ss ++
      operationReports ((labelsFrom 0 [] ss).labels.map Label.name) (ss.take i) := by
    rw [reportsBefore, operationReports_congr fun _ => mem_names_labelling]
  have hbelow : ∀ i < j, (characterReports ss ++ labelReports ss).length +
      (operationReports ((labelsFrom 0 [] ss).labels.map Label.name) (ss.take i)).length
        < limit := by
    intro i hi
    rw [← List.length_append, ← hbefore]
    exact h i hi
  obtain ⟨pool, hreports⟩ := reports_assembleAll_take 0 hbelow
  refine ⟨pool, ?_⟩
  rw [← List.length_append, ← hbefore] at hreports
  rw [errorsOf_ofStatements, hreports, ← List.append_assoc, ← hbefore]

/-! ## soundness and completeness -/

/-- A statement has no fault of the first round if all its characters are legal. -/
theorem characterFaults_eq_nil_iff :
    s.characterFaults = [] ↔ ∀ c ∈ s.text.toList, Statement.isLegal c = true := by
  simp [Statement.characterFaults, Statement.illegalChar?]

/-- A statement has no fault of the second round if it is no label, or a new
identifier. -/
theorem labelFaults_eq_nil_iff :
    s.labelFaults before = [] ↔
      (s.kind = .label →
        isIdentifier s.labelName.toList = true ∧ s.labelName ∉ validNames before) := by
  unfold Statement.labelFaults
  by_cases hkind : s.kind = .label
  · by_cases hname : isIdentifier s.labelName.toList = true
    · simp [hkind, hname, mem_validNames]
    · simp [hkind, hname]
  · simp [hkind]

/-- A statement has a fault exactly if it breaks the grammar. -/
theorem faultsAt_ne_nil_iff {i : Nat} : faultsAt ss i s ≠ [] ↔ Breaks ss i s := by
  rw [faultsAt, ne_eq, List.append_eq_nil_iff, List.append_eq_nil_iff,
    characterFaults_eq_nil_iff, labelFaults_eq_nil_iff, operationFaults_eq_nil_iff, Breaks]
  constructor
  · intro h
    by_contra hnot
    rw [not_or, not_or] at hnot
    obtain ⟨hlegal, hlabel, hoperation⟩ := hnot
    refine h ⟨⟨fun c hc => ?_, fun hkind => ?_⟩, fun hkind => ?_⟩
    · exact Bool.of_not_eq_false fun hillegal => hlegal ⟨c, hc, hillegal⟩
    · rw [not_and, not_or] at hlabel
      exact ⟨Bool.of_not_eq_false (hlabel hkind).1, (hlabel hkind).2⟩
    · exact Decidable.of_not_not fun hnot => hoperation ⟨hkind, hnot⟩
  · rintro (⟨c, hc, hillegal⟩ | ⟨hkind, hlabel⟩ | ⟨hkind, hoperation⟩) ⟨⟨hlegal, hname⟩, hargs⟩
    · rw [hlegal c hc] at hillegal
      cases hillegal
    · obtain ⟨hidentifier, hnew⟩ := hname hkind
      obtain hmalformed | hold := hlabel
      · rw [hidentifier] at hmalformed
        cases hmalformed
      · exact hnew hold
    · exact hoperation (hargs hkind)

/-- Every report is of a statement that breaks the grammar. -/
theorem exists_breaks_of_mem_allReports (h : r ∈ allReports ss) :
    ∃ i s, ss[i]? = some s ∧ r.statement = some s ∧ Breaks ss i s := by
  rw [(allReports_perm ss).mem_iff, mem_reported] at h
  obtain ⟨i, s, hs, fault, hfault, rfl⟩ := h
  exact ⟨i, s, hs, rfl, faultsAt_ne_nil_iff.mp (List.ne_nil_of_mem hfault)⟩

end Assembly

namespace Program

open Assembly

/-- **Reports**: if a text is refused, all faults are reported, round by round, as
long as there are fewer than `threshold` reports at each statement that the last
round comes to; or else those found before the first statement at which there are
not, with one report at this statement that says how many.  That no label is `main`
is reported at the end of either list, and no report at all means that the text is
accepted.  A list that ends early is the beginning of that of all faults, which is
what an assembly reports that does not give up before.

The list of all faults is that of the faults of each statement, in the order of the
rounds.  Each of its reports is of a statement that breaks the grammar, and each
statement that does so has at least one. -/
theorem load_reports_exact (source text : String) :
    let ss := Statement.read source text
    ((∀ j < ss.length, (reportsBefore j ss).length < threshold) →
      errorsOf (assemble source text) = allReports ss ++ mainReports source ss) ∧
    (∀ j s, ss[j]? = some s → threshold ≤ (reportsBefore j ss).length →
      (∀ i < j, (reportsBefore i ss).length < threshold) →
      errorsOf (assemble source text) =
        reportsBefore j ss ++ [reportAt s (.tooManyFaults (reportsBefore j ss).length)] ++
          mainReports source ss) ∧
    (∀ j, reportsBefore j ss <+: allReports ss) ∧
    (∀ limit, (allReports ss).length < limit →
      errorsOf (assembleWithin limit source text) = allReports ss ++ mainReports source ss) ∧
    ((∃ p, assemble source text = .ok p) ↔ errorsOf (assemble source text) = []) ∧
    (allReports ss).Perm (reported (faultsAt ss) 0 ss) ∧
    (∀ r ∈ allReports ss, ∃ i s, ss[i]? = some s ∧ r.statement = some s ∧ Breaks ss i s) ∧
    ∀ i s, ss[i]? = some s → Breaks ss i s →
      faultsAt ss i s ≠ [] ∧ ∀ fault ∈ faultsAt ss i s, reportAt s fault ∈ allReports ss := by
  intro ss
  have hall {limit : Nat} (h : ∀ j < ss.length, (reportsBefore j ss).length < limit) :
      errorsOf (assembleWithin limit source text) = allReports ss ++ mainReports source ss := by
    obtain ⟨pool, hreports⟩ := errorsOf_ofStatements_take source h
    rw [assembleWithin, hreports, List.drop_length, reportsBefore, List.take_length]
    simp [assembleAll, allReports]
  refine ⟨hall, fun j s hs hreached hbefore => ?_, fun j => reportsBefore_isPrefix j ss,
    fun limit hlimit => hall fun j _ => ?_, ?_, allReports_perm ss,
    fun r hr => exists_breaks_of_mem_allReports hr, fun i s hs hbreaks =>
      ⟨faultsAt_ne_nil_iff.mpr hbreaks, fun fault hfault => ?_⟩⟩
  · obtain ⟨hj, rfl⟩ := List.getElem?_eq_some_iff.mp hs
    obtain ⟨pool, hreports⟩ := errorsOf_ofStatements_take source hbefore
    rw [assemble, assembleWithin, hreports, List.drop_eq_getElem_cons hj, assembleAll,
      if_pos hreached]
  · exact Nat.lt_of_le_of_lt (reportsBefore_isPrefix j ss).length_le hlimit
  · cases h : assemble source text with
    | ok p => exact ⟨fun _ => rfl, fun _ => ⟨p, rfl⟩⟩
    | error reports =>
        constructor
        · rintro ⟨p, hp⟩
          cases hp
        · exact fun hnil => absurd hnil (ne_nil_of_ofStatements h)
  · rw [(allReports_perm ss).mem_iff, mem_reported]
    exact ⟨i, s, hs, fault, hfault, rfl⟩

/-- Of ten unknown opcodes the first eight are reported, and the ninth is where the
assembly gives up.  A malformed label, an illegal character and two labels that are
not defined are few enough to be reported all, in the order of the rounds, and so
is that there is no `main`. -/
theorem load_reports_exact_tenOpcodes :
    (errorsOf (assemble "test" "main:; a; b; c; d; e; f; g; h; i; j")).map Report.text =
      ["unknown opcode 'a' at line 1 of 'test'", "unknown opcode 'b' at line 1 of 'test'",
        "unknown opcode 'c' at line 1 of 'test'", "unknown opcode 'd' at line 1 of 'test'",
        "unknown opcode 'e' at line 1 of 'test'", "unknown opcode 'f' at line 1 of 'test'",
        "unknown opcode 'g' at line 1 of 'test'", "unknown opcode 'h' at line 1 of 'test'",
        "too many errors, giving up after '8' at line 1 of 'test'"] ∧
    (errorsOf (assemble "test" "closures f g; 2main:\nconst \x01")).map Report.id =
      ["lex/char", "label/name", "label/undef", "label/undef", "label/main"] := by
  obtain ⟨_, hreached, _⟩ := load_reports_exact "test" "main:; a; b; c; d; e; f; g; h; i; j"
  obtain ⟨hall, _⟩ := load_reports_exact "test" "closures f g; 2main:\nconst \x01"
  constructor
  · rw [hreached 9 ⟨.operation, "i", 1, "test"⟩ (by decide +kernel) (by decide +kernel)
      (by decide +kernel)]
    decide +kernel
  · rw [hall (by decide +kernel)]
    decide +kernel

end Program

end SecdMachine
