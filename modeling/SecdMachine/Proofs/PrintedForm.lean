import Mathlib.Data.List.Flatten
import SecdMachine.Proofs.JsonText
import SecdMachine.Proofs.Safety
import SecdMachine.State.Printer

/-!
# SecdMachine.Proofs.PrintedForm

The text of a value, a stack or a state says which one it is.

Texts are told apart from the left, in front of whatever follows them: if the
texts of two values begin two equal texts, the values are the same, and so is what
follows (`Text.Told`).  The first characters of a text give the type of the value
(`Value.leadType?`); of the parts of a value only a number can run on into what
follows, and that is never a digit (`Text.Ended`).  Lists, of locations or of
values, are items with a separator between them up to a closing character that no
item begins with (`Text.told_join`), so brackets and commas may nest to any depth
(`Value.told_describe`).

The lines of a program are as long whichever of them is marked, so that a state is
cut at the same places as any other state of the program
(`State.eq_of_describe`).
-/

namespace SecdMachine

/-! ## texts before a rest -/

namespace Text

/-- No digit comes first, so that no number runs on into the text. -/
def Ended (rest : List Char) : Prop :=
  ∀ c ∈ rest.head?, c.isDigit = false

theorem ended_nil : Ended [] :=
  nofun

theorem ended_cons {c : Char} {rest : List Char} (h : c.isDigit = false) : Ended (c :: rest) := by
  simpa [Ended] using h

variable {α : Type} {E : List Char → Prop} {P : α → Prop} {f : α → List Char} {xs ys : List α}
  {r r' : List Char}

/-- `Told E P f x`: in front of a rest with `E`, the text of `x` is the text of no
other `y` with `P y`, and ends where that ends. -/
def Told (E : List Char → Prop) (P : α → Prop) (f : α → List Char) (x : α) : Prop :=
  ∀ y r r', P y → E r → E r' → f x ++ r = f y ++ r' → x = y ∧ r = r'

/-- Texts one after the other are told apart, up to a rest that none of them
begins. -/
theorem told_flatMap (hxs : ∀ x ∈ xs, Told E P f x) (hys : ∀ y ∈ ys, P y)
    (hE : ∀ zs : List α, E (zs.flatMap f ++ r)) (hE' : ∀ zs : List α, E (zs.flatMap f ++ r'))
    (hr : ∀ y ∈ ys, ∀ q, f y ++ q ≠ r) (hr' : ∀ x ∈ xs, ∀ q, f x ++ q ≠ r')
    (h : xs.flatMap f ++ r = ys.flatMap f ++ r') : xs = ys ∧ r = r' := by
  induction xs generalizing ys with
  | nil =>
      cases ys with
      | nil => exact ⟨rfl, h⟩
      | cons y ys =>
          rw [List.flatMap_cons, List.append_assoc] at h
          exact absurd h.symm (hr y List.mem_cons_self _)
  | cons x xs ih =>
      cases ys with
      | nil =>
          rw [List.flatMap_cons, List.append_assoc] at h
          exact absurd h (hr' x List.mem_cons_self _)
      | cons y ys =>
          simp only [List.flatMap_cons, List.append_assoc] at h
          rw [List.forall_mem_cons] at hxs hys hr hr'
          obtain ⟨rfl, hrest⟩ := hxs.1 y _ _ hys.1 (hE xs) (hE' ys) h
          obtain ⟨rfl, hends⟩ := ih hxs.2 hys.2 hr.2 hr'.2 hrest
          exact ⟨rfl, hends⟩

theorem toList_join_cons (sep s : String) (ss : List String) :
    (join sep (s :: ss)).toList = s.toList ++ ss.flatMap fun t => sep.toList ++ t.toList := by
  induction ss generalizing s with
  | nil => simp
  | cons t ss ih =>
      rw [join_cons_cons, String.toList_append, String.toList_append, ih]
      simp

/-- **Lists**: items with a separator between them are told apart, up to a closing
character that neither an item nor the separator begins with. -/
theorem told_join {g : α → String} {sep : String} {c close : Char} {cs : List Char}
    (hsep : sep.toList = c :: cs) (hne : c ≠ close) (hc : c.isDigit = false)
    (hclose : close.isDigit = false) (hxs : ∀ x ∈ xs, Told Ended P (fun x => (g x).toList) x)
    (hP : ∀ x ∈ xs, P x) (hP' : ∀ y ∈ ys, P y)
    (hfirst : ∀ x, P x → ∀ q q', (g x).toList ++ q ≠ close :: q')
    (h : (join sep (xs.map g)).toList ++ close :: r = (join sep (ys.map g)).toList ++ close :: r') :
    xs = ys ∧ r = r' := by
  have hended (zs : List α) (q : List Char) :
      Ended ((zs.flatMap fun z => sep.toList ++ (g z).toList) ++ close :: q) := by
    cases zs with
    | nil => exact ended_cons hclose
    | cons z zs =>
        rw [List.flatMap_cons, hsep]
        exact ended_cons hc
  have hbefore (x : α) (q q' : List Char) : sep.toList ++ (g x).toList ++ q ≠ close :: q' := by
    rw [hsep]
    exact fun he => hne (List.cons.inj he).1
  cases xs with
  | nil =>
      cases ys with
      | nil => simpa using h
      | cons y ys =>
          rw [List.map_cons, toList_join_cons, List.append_assoc] at h
          exact absurd h.symm (hfirst y (hP' y List.mem_cons_self) _ _)
  | cons x xs =>
      cases ys with
      | nil =>
          rw [List.map_cons, toList_join_cons, List.append_assoc] at h
          exact absurd h (hfirst x (hP x List.mem_cons_self) _ _)
      | cons y ys =>
          simp only [List.map_cons, toList_join_cons, List.flatMap_map, List.append_assoc] at h
          rw [List.forall_mem_cons] at hxs hP'
          obtain ⟨rfl, hrest⟩ := hxs.1 y _ _ hP'.1 (hended xs r) (hended ys r') h
          -- Each further item stands behind its separator.
          have htold : ∀ x ∈ xs, Told Ended P (fun x => sep.toList ++ (g x).toList) x := by
            intro x hx y q q' hy hq hq' he
            simp only [List.append_assoc, List.append_right_inj] at he
            exact hxs.2 x hx y q q' hy hq hq' he
          obtain ⟨rfl, hends⟩ := told_flatMap htold hP'.2 (hended · r) (hended · r')
            (fun y _ q => hbefore y q r) (fun x _ q => hbefore x q r') hrest
          exact ⟨rfl, (List.cons.inj hends).2⟩

end Text

/-! ## numbers -/

namespace Numeral

open Text

/-- Natural numbers are told apart by their digits, up to the end of these. -/
theorem told_natural (n : Nat) : Told Ended (fun _ => True) (fun n => (natural n).toList) n := by
  have htake {m : Nat} {r : List Char} (hr : Ended r) :
      ((natural m).toList ++ r).takeWhile Char.isDigit = Nat.toDigits 10 m := by
    have hrest : r.takeWhile Char.isDigit = [] := by
      cases r with
      | nil => rfl
      | cons c r => simp [hr c rfl]
    rw [toList_natural, List.takeWhile_append_of_pos fun c hc => isDigit_of_mem_toDigits hc,
      hrest, List.append_nil]
  intro m r r' _ hr hr' h
  have hdigits : Nat.toDigits 10 n = Nat.toDigits 10 m := by
    rw [← htake hr, ← htake hr', h]
  obtain rfl : n = m := by
    rw [← Option.some.injEq, ← readDigits?_toDigits, ← readDigits?_toDigits, hdigits]
  exact ⟨rfl, List.append_cancel_left h⟩

theorem toList_decimal_negSucc (n : Nat) :
    (decimal (.negSucc n)).toList = '-' :: (natural (n + 1)).toList := by
  rw [decimal, String.toList_append]
  rfl

/-- A number without sign begins with a digit. -/
theorem exists_digit_natural (n : Nat) :
    ∃ c cs, (natural n).toList = c :: cs ∧ c.isDigit = true := by
  rw [toList_natural]
  cases hdigits : Nat.toDigits 10 n with
  | nil => exact absurd hdigits Nat.toDigits_ne_nil
  | cons c cs =>
      have hc : c ∈ Nat.toDigits 10 n := hdigits ▸ List.mem_cons_self
      exact ⟨c, cs, rfl, isDigit_of_mem_toDigits hc⟩

/-- Integers are told apart, signs included. -/
theorem told_decimal (n : Int) : Told Ended (fun _ => True) (fun n => (decimal n).toList) n := by
  -- A minus sign is no digit.
  have hsign (a b : Nat) (r r' : List Char) :
      (decimal (.negSucc a)).toList ++ r ≠ (decimal (.ofNat b)).toList ++ r' := by
    obtain ⟨c, cs, hcs, hdigit⟩ := exists_digit_natural b
    rw [toList_decimal_negSucc, decimal, hcs]
    intro h
    rw [← (List.cons.inj h).1] at hdigit
    exact absurd hdigit (by decide)
  intro m r r' _ hr hr' h
  cases n with
  | ofNat a =>
      cases m with
      | ofNat b =>
          obtain ⟨rfl, hrest⟩ := told_natural a b r r' trivial hr hr' h
          exact ⟨rfl, hrest⟩
      | negSucc b => exact absurd h.symm (hsign b a r' r)
  | negSucc a =>
      cases m with
      | ofNat b => exact absurd h (hsign a b r r')
      | negSucc b =>
          simp only [toList_decimal_negSucc, List.cons_append, List.cons.injEq, true_and] at h
          obtain ⟨hab, hrest⟩ := told_natural (a + 1) (b + 1) r r' trivial hr hr' h
          cases hab
          exact ⟨rfl, hrest⟩

end Numeral

/-! ## values -/

open Text

/-- Locations are told apart. -/
theorem told_describeLocation (l : Nat) :
    Told Ended (fun _ => True) (fun l => (describeLocation l).toList) l := by
  intro m r r' _ hr hr' h
  simp only [describeLocation, String.toList_append, List.append_assoc,
    List.append_right_inj] at h
  exact Numeral.told_natural l m r r' trivial hr hr' h

/-- Lists of locations are told apart, up to the comma behind them. -/
theorem told_describeLocations {ls ms : List Nat} {r r' : List Char}
    (h : (describeLocations ls).toList ++ ',' :: r = (describeLocations ms).toList ++ ',' :: r') :
    ls = ms ∧ r = r' := by
  have hfirst (l : Nat) (_ : True) (q q' : List Char) :
      (describeLocation l).toList ++ q ≠ ',' :: q' := by
    rw [describeLocation, String.toList_append]
    exact fun he => absurd (List.cons.inj he).1 (by decide)
  exact told_join (c := ' ') rfl (by decide) (by decide) (by decide)
    (fun l _ => told_describeLocation l) (fun _ _ => trivial) (fun _ _ => trivial) hfirst h

namespace Value

/-- Whether a value is of one of the types that programs produce, apart from the
values nested in it. -/
def IsTyped : Value → Prop
  | .undefined | .unknown => False
  | _ => True

/-- A value of the seven types, with such values only nested in it. -/
def Proper (v : Value) : Prop :=
  v.Everywhere IsTyped

/-- The type of the value that a text begins with. -/
def leadType? : List Char → Option String
  | [] => none
  | c :: cs =>
    if c.isDigit then some "int"
    else match c, cs with
      | '-', d :: _ => if d.isDigit then some "int" else none
      | 't', _ => some "bool"
      | 'f', 'a' :: _ => some "bool"
      | 'c', _ => some "closure"
      | 'f', 'r' :: _ => some "recursive frame"
      | 'f', 'o' :: _ => some "focused function"
      | 'r', _ => some "return address"
      | 's', _ => some "saved environment"
      | _, _ => none

/-- A value begins with what tells its type. -/
theorem leadType?_describe {v : Value} (hv : v.IsTyped) (r : List Char) :
    leadType? (v.describe.toList ++ r) = some v.typeName := by
  cases v with
  | int n =>
      cases n with
      | ofNat n =>
          obtain ⟨c, cs, hcs, hdigit⟩ := Numeral.exists_digit_natural n
          simp [describe_int, Numeral.decimal, hcs, leadType?, hdigit, typeName]
      | negSucc n =>
          obtain ⟨c, cs, hcs, hdigit⟩ := Numeral.exists_digit_natural (n + 1)
          simp [describe_int, Numeral.toList_decimal_negSucc, hcs, leadType?, hdigit, typeName]
  | bool b => cases b <;> simp [describe, leadType?, typeName]
  | closure | frame | focused | returnAddress | savedEnv =>
      simp [describe, leadType?, typeName]
  | undefined | unknown => exact hv.elim

/-- No value begins a text that begins with no type. -/
theorem describe_append_ne {v : Value} (hv : v.Proper) {r : List Char} (hr : leadType? r = none)
    (q : List Char) : v.describe.toList ++ q ≠ r := by
  intro h
  rw [← h, leadType?_describe hv.self] at hr
  cases hr

/-- A list of values is told from another if its values are. -/
theorem told_describeList {vs ws : List Value}
    (htold : ∀ v ∈ vs, Told Ended Proper (fun v => v.describe.toList) v)
    (hvs : ∀ v ∈ vs, v.Proper) (hws : ∀ w ∈ ws, w.Proper) {r r' : List Char}
    (h : (describeList vs).toList ++ r = (describeList ws).toList ++ r') : vs = ws ∧ r = r' := by
  simp only [describeList, bracket, String.toList_append, List.append_assoc,
    List.append_right_inj] at h
  have hfirst (v : Value) (hv : v.Proper) (q q' : List Char) :
      v.describe.toList ++ q ≠ ']' :: q' :=
    describe_append_ne hv rfl q
  obtain ⟨hlists, hrest⟩ := told_join (c := ',') rfl (by decide) (by decide) (by decide)
    (fun v hv => htold v (List.mem_reverse.mp hv)) (fun v hv => hvs v (List.mem_reverse.mp hv))
    (fun w hw => hws w (List.mem_reverse.mp hw)) hfirst h
  exact ⟨List.reverse_inj.mp hlists, hrest⟩

section Parts

/-! What a value is made of is told part by part, where `henv` tells the lists of
values nested in it. -/

variable {env env' : List Value} {r r' : List Char}
  (henv : ∀ q q', (describeList env).toList ++ q = (describeList env').toList ++ q' →
    env = env' ∧ q = q')
include henv

/-- Closures are told by their entry points and environments. -/
theorem told_closure {l l' : Nat}
    (h : (closure l env).describe.toList ++ r = (closure l' env').describe.toList ++ r') :
    closure l env = closure l' env' ∧ r = r' := by
  simp only [describe_closure, String.toList_append, String.reduceToList,
    List.append_assoc, List.cons_append, List.nil_append, List.cons.injEq, true_and] at h
  obtain ⟨rfl, hlist⟩ := told_describeLocation l l' _ _ trivial (ended_cons rfl) (ended_cons rfl) h
  simp only [List.cons.injEq, true_and] at hlist
  obtain ⟨rfl, hrest⟩ := henv _ _ hlist
  exact ⟨rfl, (List.cons.inj hrest).2⟩

/-- Recursive frames are told by their entry points and environments. -/
theorem told_frame {ls ls' : List Nat}
    (h : (frame ls env).describe.toList ++ r = (frame ls' env').describe.toList ++ r') :
    frame ls env = frame ls' env' ∧ r = r' := by
  simp only [describe_frame, String.toList_append, String.reduceToList,
    List.append_assoc, List.cons_append, List.nil_append, List.cons.injEq, true_and] at h
  obtain ⟨rfl, hlist⟩ := told_describeLocations h
  obtain ⟨rfl, hrest⟩ := henv _ _ (List.cons.inj hlist).2
  exact ⟨rfl, (List.cons.inj hrest).2⟩

/-- Focused functions are told by their index as well. -/
theorem told_focused {n n' : Int} {ls ls' : List Nat}
    (h : (focused n ls env).describe.toList ++ r = (focused n' ls' env').describe.toList ++ r') :
    focused n ls env = focused n' ls' env' ∧ r = r' := by
  simp only [describe_focused, String.toList_append, String.reduceToList,
    List.append_assoc, List.cons_append, List.nil_append, List.cons.injEq, true_and] at h
  obtain ⟨rfl, hlocations⟩ := Numeral.told_decimal n n' _ _ trivial (ended_cons rfl)
    (ended_cons rfl) h
  simp only [List.cons.injEq, true_and] at hlocations
  obtain ⟨rfl, hlist⟩ := told_describeLocations hlocations
  obtain ⟨rfl, hrest⟩ := henv _ _ (List.cons.inj hlist).2
  exact ⟨rfl, (List.cons.inj hrest).2⟩

/-- Saved environments are told by their values. -/
theorem told_savedEnv
    (h : (savedEnv env).describe.toList ++ r = (savedEnv env').describe.toList ++ r') :
    savedEnv env = savedEnv env' ∧ r = r' := by
  simp only [describe_savedEnv, String.toList_append, String.reduceToList,
    List.cons_append, List.nil_append, List.cons.injEq, true_and] at h
  obtain ⟨rfl, hrest⟩ := henv _ _ h
  exact ⟨rfl, hrest⟩

end Parts

/-- **Values**: the text of a value is told from that of every other. -/
theorem told_describe {v : Value} (hv : v.Proper) :
    Told Ended Proper (fun v => v.describe.toList) v := by
  induction v using Value.induction with
  | step v ih =>
      intro w r r' hw hr hr' h
      -- The types are the same, as the first characters are.
      have htype : v.typeName = w.typeName := by
        rw [← Option.some.injEq, ← leadType?_describe hv.self r, ← leadType?_describe hw.self r', h]
      have henv (q q' : List Char)
          (h : (describeList v.environment).toList ++ q =
            (describeList w.environment).toList ++ q') :
          v.environment = w.environment ∧ q = q' :=
        told_describeList (fun u hu => ih u hu (hv.inner u hu)) hv.inner hw.inner h
      cases v with
      | int n =>
          cases w with
          | int m =>
              obtain ⟨rfl, hrest⟩ := Numeral.told_decimal n m r r' trivial hr hr' h
              exact ⟨rfl, hrest⟩
          | _ => simp [typeName] at htype
      | bool b =>
          cases w with
          | bool c =>
              cases b <;> cases c <;> simp [describe] at h
              · exact ⟨rfl, h⟩
              · exact ⟨rfl, h⟩
          | _ => simp [typeName] at htype
      | closure l env =>
          cases w with
          | closure l' env' => exact told_closure henv h
          | _ => simp [typeName] at htype
      | frame ls env =>
          cases w with
          | frame ls' env' => exact told_frame henv h
          | _ => simp [typeName] at htype
      | focused n ls env =>
          cases w with
          | focused n' ls' env' => exact told_focused henv h
          | _ => simp [typeName] at htype
      | returnAddress l =>
          cases w with
          | returnAddress l' =>
              simp only [describe_returnAddress, String.toList_append, String.reduceToList,
                List.cons_append, List.nil_append, List.cons.injEq, true_and] at h
              obtain ⟨rfl, hrest⟩ := told_describeLocation l l' r r' trivial hr hr' h
              exact ⟨rfl, hrest⟩
          | _ => simp [typeName] at htype
      | savedEnv env =>
          cases w with
          | savedEnv env' => exact told_savedEnv henv h
          | _ => simp [typeName] at htype
      | undefined | unknown => exact hv.self.elim

theorem toList_describeLines (vs : List Value) :
    (describeLines vs).toList = vs.reverse.flatMap fun v => v.describe.toList ++ ['\n'] := by
  rw [describeLines, unlines, toList_concat, List.map_map, List.flatMap_map]
  simp only [Function.comp_def, String.toList_append, String.reduceToList]

/-- Values one to a line are told apart, up to a text that no value begins. -/
theorem told_describeLines {vs ws : List Value} (hvs : ∀ v ∈ vs, v.Proper)
    (hws : ∀ w ∈ ws, w.Proper) {r r' : List Char} (hr : leadType? r = none)
    (hr' : leadType? r' = none)
    (h : (describeLines vs).toList ++ r = (describeLines ws).toList ++ r') :
    vs = ws ∧ r = r' := by
  rw [toList_describeLines, toList_describeLines] at h
  have htold : ∀ v ∈ vs.reverse, Told (fun _ => True) Proper
      (fun v => v.describe.toList ++ ['\n']) v := by
    intro v hv w q q' hw _ _ he
    simp only [List.append_assoc, List.cons_append, List.nil_append] at he
    obtain ⟨rfl, hrest⟩ := told_describe (hvs v (List.mem_reverse.mp hv)) w _ _ hw
      (ended_cons rfl) (ended_cons rfl) he
    exact ⟨rfl, (List.cons.inj hrest).2⟩
  have hlead {us : List Value} (hus : ∀ u ∈ us, u.Proper) {r : List Char}
      (hr : leadType? r = none) :
      ∀ u ∈ us.reverse, ∀ q, u.describe.toList ++ ['\n'] ++ q ≠ r := by
    intro u hu q
    rw [List.append_assoc]
    exact describe_append_ne (hus u (List.mem_reverse.mp hu)) hr _
  obtain ⟨hlists, hrest⟩ := told_flatMap htold (fun w hw => hws w (List.mem_reverse.mp hw))
    (fun _ => trivial) (fun _ => trivial) (hlead hws hr) (hlead hvs hr') h
  exact ⟨List.reverse_inj.mp hlists, hrest⟩

end Value

/-! ## states -/

namespace Program

variable {p : Program} {a b : Nat}

/-- A line of a listing is as long whether it is the current one or not. -/
theorem length_listingLine (count i : Nat) (s : Statement) (a b : Nat) :
    (listingLine count a i s).toList.length = (listingLine count b i s).toList.length := by
  have hmark (current : Nat) : (if i = current then "> " else "  ").toList.length = 2 := by
    split <;> rfl
  simp only [listingLine, String.toList_append, List.length_append, hmark]

/-- The current line of a listing is marked at its front. -/
theorem head?_listingLine (count i : Nat) (s : Statement) (current : Nat) :
    (listingLine count current i s).toList.head? = some (if i = current then '>' else ' ') := by
  unfold listingLine
  split <;> simp

/-- A listing says which location is marked, or that none is. -/
theorem eq_of_listing (ha : a ≤ p.statements.length) (hb : b ≤ p.statements.length)
    (h : p.listing a = p.listing b) : a = b := by
  have hmark {i : Nat} (hi : i < p.statements.length) : i = a ↔ i = b := by
    have hline := congrArg (·[i]?) h
    simp only [listing, List.getElem?_mapIdx, List.getElem?_eq_getElem hi, Option.map_some,
      Option.some.injEq] at hline
    have hfirst := congrArg (·.toList.head?) hline
    simp only [head?_listingLine, Option.some.injEq] at hfirst
    grind
  by_cases hlt : a < p.statements.length
  · exact (hmark hlt).mp rfl
  · by_cases hlt' : b < p.statements.length
    · exact ((hmark hlt').mpr rfl).symm
    · omega

/-- The lines of a listing are as long wherever the mark is. -/
theorem length_listing (p : Program) (a b : Nat) :
    (p.listing a).map (fun line => (line ++ "\n").toList.length) =
      (p.listing b).map fun line => (line ++ "\n").toList.length := by
  refine List.ext_getElem? fun i => ?_
  simp only [listing, List.getElem?_map, List.getElem?_mapIdx, Option.map_map, Function.comp_def,
    String.toList_append, List.length_append, length_listingLine _ i _ a b]

end Program

namespace State

variable {p : Program} {s t : State}

/-- Without colours, a program is shown as its listing. -/
theorem describeProgram_plain (p : Program) (current : Nat) :
    describeProgram .plain p current = unlines (p.listing current) := by
  have hpaint : (p.listing current).mapIdx (fun i line =>
      if i = current then Palette.plain.paint .cyan line else line) = p.listing current := by
    refine List.ext_getElem? fun i => ?_
    simp
  rw [describeProgram, hpaint]

/-- The lines of a program are told from those with another location marked. -/
theorem told_describeProgram {a b : Nat} (ha : a ≤ p.statements.length)
    (hb : b ≤ p.statements.length) {r r' : List Char}
    (h : (describeProgram .plain p a).toList ++ r = (describeProgram .plain p b).toList ++ r') :
    a = b ∧ r = r' := by
  have htext (current : Nat) : (describeProgram .plain p current).toList =
      ((p.listing current).map fun line => (line ++ "\n").toList).flatten := by
    rw [describeProgram_plain, unlines, toList_concat, List.flatMap_map, List.flatMap_def]
  have hlengths : ((p.listing a).map fun line => (line ++ "\n").toList).map List.length =
      ((p.listing b).map fun line => (line ++ "\n").toList).map List.length := by
    simpa only [List.map_map, Function.comp_def] using p.length_listing a b
  rw [htext, htext] at h
  obtain ⟨hflat, hrest⟩ := List.append_inj h (by rw [List.length_flatten, hlengths,
    ← List.length_flatten])
  have hlines := List.eq_iff_flatten_eq.mpr ⟨hflat, hlengths⟩
  have hlisting : p.listing a = p.listing b := by
    refine (List.map_inj_right fun l m hlm => ?_).mp hlines
    simpa [String.toList_inj] using hlm
  exact ⟨Program.eq_of_listing ha hb hlisting, hrest⟩

/-- **States**: the text of a running state says where it is, and what is on its
stack and in its environment. -/
theorem eq_of_describe (hs : s.pc ≤ p.statements.length) (ht : t.pc ≤ p.statements.length)
    (hvs : s.Everywhere Value.IsTyped) (hvt : t.Everywhere Value.IsTyped)
    (hrs : s.isHalted = false) (hrt : t.isHalted = false)
    (h : s.describe .plain p = t.describe .plain p) :
    s.pc = t.pc ∧ s.stack = t.stack ∧ s.env = t.env := by
  have hvalues {u : State} (hu : u.Everywhere Value.IsTyped) :
      (∀ v ∈ u.stack, v.Proper) ∧ ∀ v ∈ u.env, v.Proper :=
    ⟨fun v hv => hu v (mem_contents_of_mem_stack hv), fun v hv => hu v (mem_contents_of_mem_env hv)⟩
  have hheading (q : List Char) : Value.leadType? (Report.envHeading.toList ++ q) = none := by
    simp [Report.envHeading, Value.leadType?]
  rw [describe, describe, if_neg (by simp [hrs]), if_neg (by simp [hrt]), ← String.toList_inj] at h
  simp only [String.toList_append, List.append_assoc, List.append_right_inj] at h
  obtain ⟨hpc, hstacks⟩ := told_describeProgram hs ht h
  rw [List.append_right_inj] at hstacks
  obtain ⟨hstack, henvs⟩ := Value.told_describeLines (hvalues hvs).1 (hvalues hvt).1
    (hheading _) (hheading _) hstacks
  rw [List.append_right_inj, ← List.append_nil (Value.describeLines s.env).toList,
    ← List.append_nil (Value.describeLines t.env).toList] at henvs
  exact ⟨hpc, hstack, (Value.told_describeLines (hvalues hvs).2 (hvalues hvt).2 rfl rfl henvs).1⟩

end State

/-- A value that the machine can use is of one of its types. -/
theorem Value.WellFormed.isTyped {p : Program} {v : Value} (h : v.WellFormed p) : v.IsTyped := by
  cases v with
  | undefined | unknown => exact h.elim
  | int | bool | closure | frame | focused | returnAddress | savedEnv => trivial

/-- Running states that a well-formed program reaches are shown alike only if they are
at the same location with the same stack and the same environment. -/
theorem Program.eq_of_describe {p : Program} {s t : State} (hp : p.WellFormed)
    (hs : p.Reachable s) (ht : p.Reachable t) (hrs : s.isHalted = false)
    (hrt : t.isHalted = false) (h : s.describe .plain p = t.describe .plain p) :
    s.pc = t.pc ∧ s.stack = t.stack ∧ s.env = t.env := by
  have hsize : p.size = p.statements.length := hp.length_code
  have hpc {u : State} (hu : p.Reachable u) : u.pc ≤ p.statements.length :=
    hsize ▸ (wellFormed_of_reachable hp hu).pc_le
  have htyped {u : State} (hu : p.Reachable u) : u.Everywhere Value.IsTyped := fun v hv =>
    ((wellFormed_of_reachable hp hu).values v hv).mono fun _ h => h.isTyped
  exact State.eq_of_describe (hpc hs) (hpc ht) (htyped hs) (htyped ht) hrs hrt h

/-- **Printed forms identify**: two values of the seven types, nested to any
depth, have the same text only if they are the same, and so have two lists of such
values.  Two running states of an assembled program are shown alike, without
colours, only if they are at the same location with the same stack and the same
environment. -/
theorem printed_form_identifies :
    (∀ v w : Value, v.Proper → w.Proper → v.describe = w.describe → v = w) ∧
    (∀ vs ws : List Value, (∀ v ∈ vs, v.Proper) → (∀ w ∈ ws, w.Proper) →
      Value.describeList vs = Value.describeList ws → vs = ws) ∧
    ∀ (source text : String) (p : Program) (s t : State),
      Program.assemble source text = .ok p → p.Reachable s → p.Reachable t →
      s.isHalted = false → t.isHalted = false →
      s.describe .plain p = t.describe .plain p →
      s.pc = t.pc ∧ s.stack = t.stack ∧ s.env = t.env := by
  refine ⟨fun v w hv hw h => ?_, fun vs ws hvs hws h => ?_,
    fun source text p s t hp hs ht hrs hrt h => ?_⟩
  · have htexts : v.describe.toList ++ [] = w.describe.toList ++ [] := by rw [h]
    exact (Value.told_describe hv w [] [] hw ended_nil ended_nil htexts).1
  · have htexts : (Value.describeList vs).toList ++ [] = (Value.describeList ws).toList ++ [] := by
      rw [h]
    have htold : ∀ v ∈ vs, Told Ended Value.Proper (fun v => v.describe.toList) v :=
      fun v hv => Value.told_describe (hvs v hv)
    exact (Value.told_describeList htold hvs hws htexts).1
  · exact Program.eq_of_describe (Program.wellFormed_of_assemble hp) hs ht hrs hrt h

/-- A program that goes round in a loop of two steps. -/
def Program.loop : Program where
  code := [.label, .br 0]
  labels := [("main", 0)]
  statements := Statement.read "test" "main:; br main"

/-- In a loop, the states before and after a round are shown alike and are the
same; and a closure that holds a frame is the only value with its text. -/
theorem printed_form_identifies_loop :
    (∃ s t, Program.assemble "test" "main:; br main" = .ok .loop ∧
      Program.loop.after 1 Program.loop.initial = .ok s ∧
      Program.loop.after 3 Program.loop.initial = .ok t ∧
      s.describe .plain .loop = t.describe .plain .loop ∧
      s.pc = t.pc ∧ s.stack = t.stack ∧ s.env = t.env) ∧
    ∃ v : Value, v.Proper ∧ v.describe = "closure(@5, [frame(@7 @9, [-3])])" ∧
      ∀ w : Value, w.Proper → w.describe = "closure(@5, [frame(@7 @9, [-3])])" → w = v := by
  obtain ⟨hvalues, _, hstates⟩ := printed_form_identifies
  constructor
  · have hp : Program.assemble "test" "main:; br main" = .ok .loop :=
      Program.assemble_eq_ok_iff.mpr (by decide +kernel)
    exact ⟨_, _, hp, rfl, rfl, rfl, hstates _ _ _ _ _ hp ⟨1, rfl⟩ ⟨3, rfl⟩ rfl rfl rfl⟩
  · have hint : Value.Proper (.int (-3)) := Value.everywhere_of_environment_eq_nil trivial rfl
    have hframe : Value.Proper (.frame [7, 9] [.int (-3)]) :=
      .intro trivial (List.forall_mem_singleton.mpr hint)
    have hclosure : Value.Proper (.closure 5 [.frame [7, 9] [.int (-3)]]) :=
      .intro trivial (List.forall_mem_singleton.mpr hframe)
    have htext : (Value.closure 5 [.frame [7, 9] [.int (-3)]]).describe =
        "closure(@5, [frame(@7 @9, [-3])])" := by decide +kernel
    exact ⟨_, hclosure, htext, fun w hw h => hvalues w _ hw hclosure (h.trans htext.symm)⟩

end SecdMachine
