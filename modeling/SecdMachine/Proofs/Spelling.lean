import Mathlib.Data.Nat.Digits.Defs
import SecdMachine.Numeral

/-!
# SecdMachine.Proofs.Spelling

What integer literals spell.

The spelling of an integer is said here as a grammar with values, from its parts up:
digits of a radix with single underscores between them (`SpellsDigits`), numerals
in one of four radices (`SpellsNatural`), and a sign in front (`Spells`).  The value
of digits is positional, so nothing is said of the order in which they are read.

The reader has a limit that it checks digit by digit, and finds out about the
underscores in a second pass.  On digits that are spelled well both come to the
positional value (`magnitude_of_spellsDigits`, `wellSpaced_of_spellsDigits`), and
what they both accept is spelled well (`spellsDigits_of_magnitude`).  The main
statement is `readInteger_eq_ok_iff`: a literal reads as an integer exactly if it
spells it and it is a machine integer.
-/

namespace SecdMachine.Numeral

variable {radix limit acc d n : Nat} {c : Char} {cs : List Char} {ds : List Nat}

/-! ## the grammar -/

/-- The character is a digit of the value `d`: one of `0` to `9` or, from ten on, one
of `a` to `f` in either case. -/
def IsDigit (d : Nat) (c : Char) : Prop :=
  c = Nat.digitChar d ∨ c = (Nat.digitChar d).toUpper

/-- `SpellsDigits radix cs ds`: the characters are the digits with the values `ds`,
and between two of them there may be an underscore. -/
inductive SpellsDigits (radix : Nat) : List Char → List Nat → Prop where
  | last {d : Nat} {c : Char} (hd : d < radix) (hc : IsDigit d c) : SpellsDigits radix [c] [d]
  | next {d : Nat} {c : Char} {cs : List Char} {ds : List Nat} (hd : d < radix)
      (hc : IsDigit d c) (rest : SpellsDigits radix cs ds) :
      SpellsDigits radix (c :: cs) (d :: ds)
  | spaced {d : Nat} {c : Char} {cs : List Char} {ds : List Nat} (hd : d < radix)
      (hc : IsDigit d c) (rest : SpellsDigits radix cs ds) :
      SpellsDigits radix (c :: '_' :: cs) (d :: ds)

/-- The letters that mark a radix, behind a leading zero. -/
def marks : List (Char × Nat) :=
  [('x', 16), ('X', 16), ('o', 8), ('O', 8), ('b', 2), ('B', 2)]

/-- `SpellsNatural cs n`: the characters are a numeral of the value `n`.  It is
decimal if it has no leading zero, octal if it has one, and of the radix of its
mark, behind which there may be an underscore, if it has a mark. -/
inductive SpellsNatural : List Char → Nat → Prop where
  | decimal {cs : List Char} {ds : List Nat} (hzero : cs.head? ≠ some '0')
      (h : SpellsDigits 10 cs ds) : SpellsNatural cs (Nat.ofDigits 10 ds.reverse)
  | octal {cs : List Char} {ds : List Nat} (h : SpellsDigits 8 ('0' :: cs) ds) :
      SpellsNatural ('0' :: cs) (Nat.ofDigits 8 ds.reverse)
  | marked {m : Char} {radix : Nat} {cs : List Char} {ds : List Nat}
      (hm : (m, radix) ∈ marks) (h : SpellsDigits radix cs ds) :
      SpellsNatural ('0' :: m :: cs) (Nat.ofDigits radix ds.reverse)
  | markedSpaced {m : Char} {radix : Nat} {cs : List Char} {ds : List Nat}
      (hm : (m, radix) ∈ marks) (h : SpellsDigits radix cs ds) :
      SpellsNatural ('0' :: m :: '_' :: cs) (Nat.ofDigits radix ds.reverse)

/-- `Spells cs n`: the characters are a numeral, with or without a sign, of the
value `n`. -/
inductive Spells : List Char → Int → Prop where
  | unsigned {cs : List Char} {n : Nat} (h : SpellsNatural cs n) : Spells cs n
  | plus {cs : List Char} {n : Nat} (h : SpellsNatural cs n) : Spells ('+' :: cs) n
  | minus {cs : List Char} {n : Nat} (h : SpellsNatural cs n) : Spells ('-' :: cs) (-n)

/-! ## digits -/

/-- The digits of the reader are those of the grammar. -/
theorem digitValue?_eq_some_iff (hd : d < 16) : digitValue? c = some d ↔ IsDigit d c := by
  constructor
  · intro h
    have hsmall : c.toNat < 123 := by
      unfold digitValue? at h
      split at h
      · next hrange => exact Nat.lt_of_le_of_lt hrange.2 (by decide)
      · split at h
        · next hrange => exact Nat.lt_succ_of_le hrange.2
        · split at h
          · next hrange => exact Nat.lt_of_le_of_lt hrange.2 (by decide)
          · cases h
    have hall : ∀ m < 123, ∀ d < 16, digitValue? (Char.ofNat m) = some d →
        Char.ofNat m = Nat.digitChar d ∨ Char.ofNat m = (Nat.digitChar d).toUpper := by
      decide +kernel
    have hofNat : Char.ofNat c.toNat = c := Char.ofNat_toNat c
    have := hall c.toNat hsmall d hd
    rw [hofNat] at this
    exact this h
  · have hall : ∀ d < 16, digitValue? (Nat.digitChar d) = some d ∧
        digitValue? (Nat.digitChar d).toUpper = some d := by
      decide +kernel
    rintro (rfl | rfl)
    · exact (hall d hd).1
    · exact (hall d hd).2

theorem digit?_eq_some_iff (hradix : radix ≤ 16) :
    digit? radix c = some d ↔ d < radix ∧ IsDigit d c := by
  rw [digit?, Option.filter_eq_some_iff, decide_eq_true_eq]
  constructor
  · rintro ⟨hvalue, hd⟩
    exact ⟨hd, (digitValue?_eq_some_iff (by omega)).mp hvalue⟩
  · rintro ⟨hd, hc⟩
    exact ⟨(digitValue?_eq_some_iff (by omega)).mpr hc, hd⟩

theorem not_isDigit_underscore (hd : d < 16) : ¬ IsDigit d '_' := by
  rw [← digitValue?_eq_some_iff hd]
  exact nofun

/-- Digits start with a digit. -/
theorem SpellsDigits.exists_cons (h : SpellsDigits radix cs ds) :
    ∃ c cs' d, cs = c :: cs' ∧ d < radix ∧ IsDigit d c := by
  cases h with
  | last hd hc | next hd hc | spaced hd hc => exact ⟨_, _, _, rfl, hd, hc⟩

/-! ## the value and the spacing of digits -/

/-- Digits behind the value `acc` are worth the same if their first one is made part
of it. -/
theorem ofDigits_reverse_cons (radix acc d : Nat) (ds : List Nat) :
    acc * radix ^ (d :: ds).length + Nat.ofDigits radix (d :: ds).reverse =
      (acc * radix + d) * radix ^ ds.length + Nat.ofDigits radix ds.reverse := by
  rw [List.reverse_cons, Nat.ofDigits_append, Nat.ofDigits_singleton, List.length_reverse,
    List.length_cons, Nat.pow_succ]
  ring

/-- A leading zero is worth nothing. -/
theorem ofDigits_reverse_zero (radix : Nat) (ds : List Nat) :
    Nat.ofDigits radix (0 :: ds).reverse = Nat.ofDigits radix ds.reverse := by
  have hcons := ofDigits_reverse_cons radix 0 0 ds
  simpa only [Nat.zero_mul, Nat.zero_add] using hcons

/-- One more digit, which may be followed by an underscore. -/
theorem magnitude_cons (hradix : radix ≤ 16) (hd : d < radix) (hc : IsDigit d c) :
    magnitude radix limit acc (c :: cs) =
      if limit < acc * radix + d then .error .outOfRange
      else magnitude radix limit (acc * radix + d) cs := by
  have hne : c ≠ '_' := by
    rintro rfl
    exact not_isDigit_underscore (by omega) hc
  rw [magnitude, if_neg hne, (digit?_eq_some_iff hradix).mpr ⟨hd, hc⟩]

/-- The value of digits that are spelled well is their positional value, behind the
value `acc`, up to the limit. -/
theorem magnitude_of_spellsDigits (hradix : radix ≤ 16) (h : SpellsDigits radix cs ds) :
    magnitude radix limit acc cs =
      if limit < acc * radix ^ ds.length + Nat.ofDigits radix ds.reverse then .error .outOfRange
      else .ok (acc * radix ^ ds.length + Nat.ofDigits radix ds.reverse) := by
  have hover {acc : Nat} {ds : List Nat} {r : Except Error Nat} (hpos : 0 < radix)
      (hacc : limit < acc) :
      (if limit < acc * radix ^ ds.length + Nat.ofDigits radix ds.reverse then
        (.error .outOfRange : Except Error Nat) else r) = .error .outOfRange := by
    have hle : acc ≤ acc * radix ^ ds.length := Nat.le_mul_of_pos_right _ (Nat.pow_pos hpos)
    rw [if_pos (by omega)]
  induction h generalizing acc with
  | last hd hc =>
      rw [magnitude_cons hradix hd hc, ofDigits_reverse_cons]
      simp [magnitude]
  | next hd hc rest ih =>
      rw [magnitude_cons hradix hd hc, ofDigits_reverse_cons]
      split
      · next hacc => exact (hover (by omega) hacc).symm
      · exact ih
  | spaced hd hc rest ih =>
      rw [magnitude_cons hradix hd hc, ofDigits_reverse_cons, magnitude, if_pos rfl]
      split
      · next hacc => exact (hover (by omega) hacc).symm
      · exact ih

theorem wellSpaced_of_spellsDigits (hradix : radix ≤ 16) (h : SpellsDigits radix cs ds)
    (afterDigit : Bool) : wellSpaced afterDigit cs = true := by
  have hcons {d : Nat} {c : Char} (hd : d < radix) (hc : IsDigit d c) (b : Bool)
      (cs : List Char) : wellSpaced b (c :: cs) = wellSpaced true cs := by
    have hne : c ≠ '_' := by
      rintro rfl
      exact not_isDigit_underscore (by omega) hc
    rw [wellSpaced, if_neg hne]
  induction h generalizing afterDigit with
  | last hd hc => rw [hcons hd hc, wellSpaced]
  | next hd hc rest ih => rw [hcons hd hc, ih]
  | spaced hd hc rest ih => rw [hcons hd hc, wellSpaced, if_pos rfl, ih, Bool.and_self]

/-- What follows a digit: nothing, digits, or an underscore and digits. -/
inductive SpellsRest (radix : Nat) : List Char → List Nat → Prop where
  | nil : SpellsRest radix [] []
  | digits {cs : List Char} {ds : List Nat} (h : SpellsDigits radix cs ds) :
      SpellsRest radix cs ds
  | spaced {cs : List Char} {ds : List Nat} (h : SpellsDigits radix cs ds) :
      SpellsRest radix ('_' :: cs) ds

theorem SpellsRest.cons (hd : d < radix) (hc : IsDigit d c) (h : SpellsRest radix cs ds) :
    SpellsDigits radix (c :: cs) (d :: ds) := by
  cases h with
  | nil => exact .last hd hc
  | digits h => exact .next hd hc h
  | spaced h => exact .spaced hd hc h

/-- Characters with a value that are spaced well are digits, or what may follow one
if one came before. -/
theorem spellsDigits_of_magnitude (hradix : radix ≤ 16)
    (h : magnitude radix limit acc cs = .ok n) :
    (wellSpaced false cs = true → ∃ ds, SpellsDigits radix cs ds) ∧
    (wellSpaced true cs = true → ∃ ds, SpellsRest radix cs ds) := by
  induction cs generalizing acc with
  | nil => exact ⟨nofun, fun _ => ⟨[], .nil⟩⟩
  | cons c cs ih =>
      rw [magnitude] at h
      split at h
      · next hc =>
          subst hc
          refine ⟨nofun, fun hspaced => ?_⟩
          rw [wellSpaced, if_pos rfl, Bool.true_and] at hspaced
          obtain ⟨ds, hds⟩ := (ih h).1 hspaced
          exact ⟨ds, .spaced hds⟩
      · next hc =>
          split at h
          · cases h
          · next d hd =>
              obtain ⟨hd, hdigit⟩ := (digit?_eq_some_iff hradix).mp hd
              split at h
              · cases h
              · have hdigits : wellSpaced true cs = true →
                    ∃ ds, SpellsDigits radix (c :: cs) ds := by
                  intro hspaced
                  obtain ⟨ds, hds⟩ := (ih h).2 hspaced
                  exact ⟨d :: ds, hds.cons hd hdigit⟩
                rw [wellSpaced, wellSpaced, if_neg hc, if_neg hc]
                refine ⟨hdigits, fun hspaced => ?_⟩
                obtain ⟨ds, hds⟩ := hdigits hspaced
                exact ⟨ds, .digits hds⟩

theorem magnitude_of_spellsRest (hradix : radix ≤ 16) (h : SpellsRest radix cs ds) :
    magnitude radix limit 0 cs =
      if limit < Nat.ofDigits radix ds.reverse then .error .outOfRange
      else .ok (Nat.ofDigits radix ds.reverse) := by
  have hdigits {cs : List Char} (h : SpellsDigits radix cs ds) :
      magnitude radix limit 0 cs = if limit < Nat.ofDigits radix ds.reverse then
        .error .outOfRange else .ok (Nat.ofDigits radix ds.reverse) := by
    rw [magnitude_of_spellsDigits hradix h, Nat.zero_mul, Nat.zero_add]
  cases h with
  | nil => rfl
  | digits h => exact hdigits h
  | spaced h =>
      rw [magnitude, if_pos rfl]
      exact hdigits h

/-- A value within the limit is the one that is found. -/
theorem eq_of_magnitude {m : Nat}
    (h : magnitude radix limit acc cs = if limit < m then .error .outOfRange else .ok m)
    (hn : magnitude radix limit acc cs = .ok n) : n = m := by
  rw [hn] at h
  split at h
  · cases h
  · exact Except.ok.inj h

theorem wellSpaced_of_spellsRest (hradix : radix ≤ 16) (h : SpellsRest radix cs ds) :
    wellSpaced true cs = true := by
  cases h with
  | nil => rfl
  | digits h => exact wellSpaced_of_spellsDigits hradix h true
  | spaced h =>
      rw [wellSpaced, if_pos rfl, wellSpaced_of_spellsDigits hradix h false, Bool.and_self]

/-! ## numerals -/

theorem mem_marks_iff {m : Char} : (m, radix) ∈ marks ↔ radixMark? m = some radix := by
  unfold radixMark?
  constructor
  · intro h
    simp only [marks, List.mem_cons, Prod.mk.injEq, List.not_mem_nil, or_false] at h
    obtain ⟨rfl, rfl⟩ | ⟨rfl, rfl⟩ | ⟨rfl, rfl⟩ | ⟨rfl, rfl⟩ | ⟨rfl, rfl⟩ | ⟨rfl, rfl⟩ := h <;> rfl
  · intro h
    simp only [marks, List.mem_cons, Prod.mk.injEq, List.not_mem_nil, or_false]
    grind

theorem le_of_mem_marks {m : Char} (h : (m, radix) ∈ marks) : radix ≤ 16 := by
  have hall : ∀ mark ∈ marks, mark.2 ≤ 16 := by decide
  exact hall _ h

/-- A numeral has a mark and something behind it, or else a leading zero, or
neither. -/
theorem ofChars_cases (cs : List Char) :
    (∃ m radix rest, cs = '0' :: m :: rest ∧ rest ≠ [] ∧ (m, radix) ∈ marks ∧
      Body.ofChars cs = ⟨radix, true, rest⟩) ∨
    (∃ rest, cs = '0' :: rest ∧ Body.ofChars cs = ⟨8, true, rest⟩) ∨
    (cs.head? ≠ some '0' ∧ Body.ofChars cs = ⟨10, false, cs⟩) := by
  unfold Body.ofChars
  split
  · next m c rest =>
      split
      · next radix hm =>
          exact .inl ⟨m, radix, c :: rest, rfl, List.cons_ne_nil _ _, mem_marks_iff.mpr hm, rfl⟩
      · exact .inr (.inl ⟨_, rfl, rfl⟩)
  · exact .inr (.inl ⟨_, rfl, rfl⟩)
  · next _ hnone' =>
      refine .inr (.inr ⟨fun hhead => ?_, rfl⟩)
      obtain ⟨rest, rfl⟩ := List.head?_eq_some_iff.mp hhead
      exact (hnone' rest rfl).elim

theorem ofChars_of_mark {m : Char} (hm : (m, radix) ∈ marks) (hne : cs ≠ []) :
    Body.ofChars ('0' :: m :: cs) = ⟨radix, true, cs⟩ := by
  obtain ⟨c, rest, rfl⟩ := List.exists_cons_of_ne_nil hne
  simp only [Body.ofChars, mem_marks_iff.mp hm]

/-- Behind a leading zero that a digit or nothing follows, there is no mark. -/
theorem not_spellsRest_of_mark {m : Char} (hm : (m, radix) ∈ marks) :
    ¬ SpellsRest 8 (m :: cs) ds := by
  have hall : ∀ mark ∈ marks, digit? 8 mark.1 = none ∧ mark.1 ≠ '_' := by decide
  obtain ⟨hdigit, hunderscore⟩ := hall _ hm
  intro h
  generalize hcs : m :: cs = cs' at h
  cases h with
  | nil => cases hcs
  | spaced h => exact hunderscore (List.cons.inj hcs).1
  | digits h =>
      obtain ⟨c, rest, d, rfl, hd, hc⟩ := h.exists_cons
      rw [← (List.cons.inj hcs).1, ← digitValue?_eq_some_iff (by omega)] at hc
      simp only [digit?, hc, Option.filter_some, decide_eq_true hd, if_true] at hdigit
      cases hdigit

/-- What follows a leading zero, and the digits that it makes with it. -/
theorem spellsRest_of_leading_zero (h : SpellsDigits 8 ('0' :: cs) ds) :
    ∃ ds', SpellsRest 8 cs ds' ∧ Nat.ofDigits 8 ds.reverse = Nat.ofDigits 8 ds'.reverse := by
  have hzero {d : Nat} (hd : d < 8) (hc : IsDigit d '0') : d = 0 := by
    have hvalue := (digitValue?_eq_some_iff (by omega)).mpr hc
    exact (Option.some.inj hvalue).symm
  have hdigits {d : Nat} (hd : d < 8) (hc : IsDigit d '0') (ds : List Nat) :
      Nat.ofDigits 8 (d :: ds).reverse = Nat.ofDigits 8 ds.reverse := by
    rw [hzero hd hc, ofDigits_reverse_zero]
  cases h with
  | last hd hc => exact ⟨[], .nil, hdigits hd hc []⟩
  | next hd hc rest => exact ⟨_, .digits rest, hdigits hd hc _⟩
  | spaced hd hc rest => exact ⟨_, .spaced rest, hdigits hd hc _⟩

/-- Of a numeral whose underscores are in order, the value is read. -/
theorem readNatural_eq_magnitude {marked : Bool} {rest : List Char}
    (hbody : Body.ofChars cs = ⟨radix, marked, rest⟩) (hspaced : wellSpaced marked rest = true) :
    readNatural cs = magnitude radix maxWord 0 rest := by
  simp only [readNatural, hbody, hspaced, if_true]
  cases magnitude radix maxWord 0 rest <;> rfl

/-- A numeral reads as its value, up to the greatest word. -/
theorem SpellsNatural.readNatural_eq (h : SpellsNatural cs n) :
    readNatural cs = if maxWord < n then .error .outOfRange else .ok n := by
  have hread {radix : Nat} {rest : List Char} {ds : List Nat} (hradix : radix ≤ 16)
      (hrest : SpellsRest radix rest ds) (hbody : Body.ofChars cs = ⟨radix, true, rest⟩) :
      readNatural cs = if maxWord < Nat.ofDigits radix ds.reverse then .error .outOfRange
        else .ok (Nat.ofDigits radix ds.reverse) := by
    rw [readNatural_eq_magnitude hbody (wellSpaced_of_spellsRest hradix hrest),
      magnitude_of_spellsRest hradix hrest]
  cases h with
  | decimal hzero h =>
      obtain ⟨m, radix, rest, rfl, _⟩ | ⟨rest, rfl, _⟩ | ⟨_, hbody⟩ := ofChars_cases cs
      · exact absurd rfl hzero
      · exact absurd rfl hzero
      · rw [readNatural_eq_magnitude hbody (wellSpaced_of_spellsDigits (by decide) h false),
          magnitude_of_spellsDigits (by decide) h, Nat.zero_mul, Nat.zero_add]
  | @octal cs ds h =>
      obtain ⟨ds', hrest, hvalue⟩ := spellsRest_of_leading_zero h
      rw [hvalue]
      refine hread (by decide) hrest ?_
      obtain ⟨m, radix, rest, hcs, _, hm, _⟩ | ⟨rest, hcs, hbody⟩ | ⟨hzero, _⟩ :=
        ofChars_cases ('0' :: cs)
      · rw [(List.cons.inj hcs).2] at hrest
        exact absurd hrest (not_spellsRest_of_mark hm)
      · rw [hbody, (List.cons.inj hcs).2]
      · exact absurd rfl hzero
  | marked hm h =>
      obtain ⟨c, rest, _, rfl, _⟩ := h.exists_cons
      exact hread (le_of_mem_marks hm) (.digits h) (ofChars_of_mark hm (List.cons_ne_nil c rest))
  | markedSpaced hm h =>
      exact hread (le_of_mem_marks hm) (.spaced h) (ofChars_of_mark hm (List.cons_ne_nil _ _))

/-- What reads as a number has a value and its underscores in order. -/
theorem of_readNatural_eq_ok (h : readNatural cs = .ok n) :
    magnitude (Body.ofChars cs).radix maxWord 0 (Body.ofChars cs).digits = .ok n ∧
      wellSpaced (Body.ofChars cs).marked (Body.ofChars cs).digits = true := by
  simp only [readNatural] at h
  split at h
  · cases h
  · next hvalue =>
      split at h
      · next hspaced =>
          cases h
          exact ⟨hvalue, hspaced⟩
      · cases h

/-- What reads as a number is a numeral of it. -/
theorem spellsNatural_of_readNatural (h : readNatural cs = .ok n) : SpellsNatural cs n := by
  obtain ⟨hvalue, hspaced⟩ := of_readNatural_eq_ok h
  obtain ⟨m, radix, rest, rfl, hne, hm, hbody⟩ | ⟨rest, rfl, hbody⟩ | ⟨hzero, hbody⟩ :=
    ofChars_cases cs
  · have hradix := le_of_mem_marks hm
    rw [hbody] at hvalue hspaced
    obtain ⟨ds, hds⟩ := (spellsDigits_of_magnitude hradix hvalue).2 hspaced
    obtain rfl := eq_of_magnitude (magnitude_of_spellsRest hradix hds) hvalue
    cases hds with
    | nil => exact absurd rfl hne
    | digits h => exact .marked hm h
    | spaced h => exact .markedSpaced hm h
  · have hradix : 8 ≤ 16 := by decide
    rw [hbody] at hvalue hspaced
    obtain ⟨ds, hds⟩ := (spellsDigits_of_magnitude hradix hvalue).2 hspaced
    obtain rfl := eq_of_magnitude (magnitude_of_spellsRest hradix hds) hvalue
    rw [← ofDigits_reverse_zero]
    exact .octal (hds.cons (by decide) (.inl rfl))
  · have hradix : 10 ≤ 16 := by decide
    rw [hbody] at hvalue hspaced
    obtain ⟨ds, hds⟩ := (spellsDigits_of_magnitude hradix hvalue).1 hspaced
    have hmagnitude : magnitude 10 maxWord 0 cs = _ := magnitude_of_spellsDigits hradix hds
    rw [Nat.zero_mul, Nat.zero_add] at hmagnitude
    obtain rfl := eq_of_magnitude hmagnitude hvalue
    exact .decimal hzero hds

/-! ## literals -/

/-- A numeral starts with a digit, and so with no sign. -/
theorem SpellsNatural.exists_cons (h : SpellsNatural cs n) :
    ∃ c cs', cs = c :: cs' ∧ c ≠ '-' ∧ c ≠ '+' := by
  have hsign {radix : Nat} {cs : List Char} {ds : List Nat} (hradix : radix ≤ 16)
      (h : SpellsDigits radix cs ds) : ∃ c cs', cs = c :: cs' ∧ c ≠ '-' ∧ c ≠ '+' := by
    obtain ⟨c, cs', d, rfl, hd, hc⟩ := h.exists_cons
    have hvalue := (digitValue?_eq_some_iff (by omega)).mpr hc
    refine ⟨c, cs', rfl, ?_, ?_⟩ <;> (rintro rfl; cases hvalue)
  cases h with
  | decimal _ h => exact hsign (by decide) h
  | octal h => exact hsign (by decide) h
  | marked | markedSpaced => exact ⟨_, _, rfl, by decide, by decide⟩

/-- A literal reads as the integer that it spells, if that is a machine integer, and
is out of range otherwise. -/
theorem readInteger_of_spells {n : Int} (h : Spells cs n) : readInteger cs = checked n := by
  have hbind {cs : List Char} {n : Nat} (h : SpellsNatural cs n) {f : Nat → Int}
      (hover : maxWord < n → fits (f n) = false) :
      ((readNatural cs).bind fun m => checked (f m)) = checked (f n) := by
    rw [h.readNatural_eq]
    split
    · next hlt =>
        rw [checked, hover hlt]
        rfl
    · rfl
  have hplus {n : Nat} (hlt : maxWord < n) : fits n = false := by
    rw [Bool.eq_false_iff, ne_eq, fits_iff]
    unfold maxWord at hlt
    omega
  have hminus {n : Nat} (hlt : maxWord < n) : fits (-n) = false := by
    rw [Bool.eq_false_iff, ne_eq, fits_iff]
    unfold maxWord at hlt
    omega
  cases h with
  | plus h => exact hbind h hplus
  | minus h => exact hbind h hminus
  | unsigned h =>
      obtain ⟨c, cs, rfl, hminus, hplus'⟩ := h.exists_cons
      unfold readInteger
      split
      · next heq => exact absurd (List.cons.inj heq).1 hminus
      · next heq => exact absurd (List.cons.inj heq).1 hplus'
      · exact hbind h hplus

/-- What reads as an integer spells it. -/
theorem spells_of_readInteger {n : Int} (h : readInteger cs = .ok n) : Spells cs n := by
  have hbind {cs : List Char} {f : Nat → Int}
      (hb : ((readNatural cs).bind fun m => checked (f m)) = .ok n) :
      ∃ m, SpellsNatural cs m ∧ n = f m := by
    cases hr : readNatural cs with
    | error e =>
        rw [hr] at hb
        cases hb
    | ok m =>
        rw [hr] at hb
        refine ⟨m, spellsNatural_of_readNatural hr, ?_⟩
        simp only [Except.bind, checked] at hb
        split at hb
        · exact (Except.ok.inj hb).symm
        · cases hb
  unfold readInteger at h
  split at h
  · obtain ⟨m, hm, rfl⟩ := hbind h
    exact .minus hm
  · obtain ⟨m, hm, rfl⟩ := hbind h
    exact .plus hm
  · obtain ⟨m, hm, rfl⟩ := hbind h
    exact .unsigned hm

/-- **Integer literals**: a text reads as an integer exactly if it spells it and it
is a machine integer. -/
theorem readInteger_eq_ok_iff {n : Int} :
    readInteger cs = .ok n ↔ Spells cs n ∧ fits n = true := by
  constructor
  · intro h
    have hspells := spells_of_readInteger h
    rw [readInteger_of_spells hspells, checked] at h
    split at h
    · next hfits => exact ⟨hspells, hfits⟩
    · cases h
  · rintro ⟨hspells, hfits⟩
    rw [readInteger_of_spells hspells, checked, if_pos hfits]

end SecdMachine.Numeral
