import Mathlib.Algebra.Ring.Int.Defs
import Mathlib.Data.List.Pairwise
import SecdMachine.Proofs.FlatDocument
import SecdMachine.Settings

/-!
# SecdMachine.Proofs.SettingsFile

What the settings file says and what the settings are.

The document is looked at twice, by the check and by the reader of the settings.  Of
each entry the check asks whether its key takes its value (`Key.Takes`), and finds one
issue with it or none (`issue?_eq_none_iff`).  The reader sets what the check lets
through (`settles_of_set?`) and leaves the rest as it is (`agrees_of_set?`); by
induction on the entries, every setting has the value of its key or is as before
(`of_foldlM_set?`).

The two do not agree on all values.  A step budget should be a machine integer
(`Key.Fits`), but the check has no upper limit: an integer that is too large is refused
by the reader, and one double, 2^63, wraps around there (`Key.Wraps`).  The main
statement `flat_document_overlays_defaults` therefore has this double beside the values
that fit, and null keys, which no one looks at, beside the five.
-/

namespace SecdMachine.Settings

open Yaml (Leaf Entry Scalar Reads)

/-! ## what settings take -/

/-- What a key takes according to the check: an integral number of at least 1, a
boolean, or the name of a level. -/
def Key.Takes : Key → Scalar → Prop
  | .maxSteps, v => ∃ n : Int, (v = .integer n ∨ v = .double (some n)) ∧ 1 ≤ n
  | .interactive, v | .clearScreen, v | .colour, v => ∃ b, v = .bool b
  | .level, v => ∃ l : Level, v = .string l.name

/-- What a key should take: a step budget is also a machine integer. -/
def Key.Fits : Key → Scalar → Prop
  | .maxSteps, v =>
    ∃ n : Int, (v = .integer n ∨ v = .double (some n)) ∧ 1 ≤ n ∧ n ≤ 2 ^ 63 - 1
  | key, v => key.Takes v

/-- The double that is one more than the greatest machine integer. -/
def Key.Wraps (key : Key) (v : Scalar) : Prop :=
  key = .maxSteps ∧ v = .double (some (2 ^ 63))

/-- The settings have the value for the key. -/
def Has (s : Settings) : Key → Scalar → Prop
  | .maxSteps, v => v = .integer s.maxSteps ∨ v = .double (some s.maxSteps)
  | .interactive, v => v = .bool s.interactive
  | .clearScreen, v => v = .bool s.clearScreen
  | .colour, v => v = .bool s.colour
  | .level, v => v = .string s.level.name

/-- The settings are the same at the key. -/
def Agrees (s t : Settings) : Key → Prop
  | .maxSteps => s.maxSteps = t.maxSteps
  | .interactive => s.interactive = t.interactive
  | .clearScreen => s.clearScreen = t.clearScreen
  | .colour => s.colour = t.colour
  | .level => s.level = t.level

variable {s t : Settings} {key : Key} {l : Leaf} {v : Scalar}

/-- The settings have a value that fits, or the least machine integer for the double
that does not. -/
def Settles (s : Settings) (key : Key) (v : Scalar) : Prop :=
  key.Fits v ∧ s.Has key v ∨ key.Wraps v ∧ s.maxSteps = -2 ^ 63

theorem Agrees.trans {u : Settings} (h : s.Agrees t key) (h' : t.Agrees u key) :
    s.Agrees u key := by
  cases key <;> exact Eq.trans h h'

/-- A key is settled in all settings that agree at it. -/
theorem Settles.of_agrees (h : s.Settles key v) (hagrees : t.Agrees s key) :
    t.Settles key v := by
  obtain ⟨hfits, hhas⟩ | ⟨⟨rfl, hv⟩, hwraps⟩ := h
  · refine .inl ⟨hfits, ?_⟩
    cases key <;> (unfold Agrees at hagrees; unfold Has at hhas ⊢; rwa [hagrees])
  · exact .inr ⟨⟨rfl, hv⟩, Eq.trans hagrees hwraps⟩

/-- A step budget that is settled is at least 1, unless it has wrapped. -/
theorem Settles.one_le_iff (h : s.Settles .maxSteps v) :
    1 ≤ s.maxSteps ↔ v ≠ .double (some (2 ^ 63)) := by
  obtain ⟨⟨n, hv, hlo, hhi⟩, hhas⟩ | ⟨⟨_, hv⟩, hwraps⟩ := h
  · have hn : n = s.maxSteps := by
      obtain rfl | rfl := hv <;> obtain h | h := hhas <;> cases h <;> rfl
    refine iff_of_true (hn ▸ hlo) ?_
    rintro rfl
    obtain h | h := hv
    · cases h
    · rw [← Option.some.inj (Scalar.double.inj h)] at hhi
      omega
  · exact iff_of_false (by omega) (not_not_intro hv)

/-- A key is found by its name only. -/
theorem Key.ofName?_eq_some_iff {name : String} :
    Key.ofName? name = some key ↔ name = key.name := by
  constructor
  · intro h
    have := List.find?_some h
    simpa [eq_comm] using this
  · rintro rfl
    exact Key.ofName?_name key

/-- Different keys have different names. -/
theorem Key.name_inj {k : Key} (h : key.name = k.name) : key = k := by
  rw [← Option.some.injEq, ← Key.ofName?_name key, h, Key.ofName?_name]

/-- A level is found by its name only. -/
theorem Level.isSome_ofName?_iff {name : String} :
    (Level.ofName? name).isSome = true ↔ ∃ l : Level, name = l.name := by
  constructor
  · intro h
    obtain ⟨l, hl⟩ := Option.isSome_iff_exists.mp h
    have := List.find?_some hl
    exact ⟨l, by simpa [eq_comm] using this⟩
  · rintro ⟨l, rfl⟩
    rw [Level.ofName?_name]
    rfl

/-- The names of levels and keys are words that stand for themselves. -/
theorem ofWord_name (timestamps : Bool) :
    (∀ level : Level, Yaml.ofWord timestamps level.name.toList = .string level.name) ∧
    ∀ key : Key, Yaml.ofWord timestamps key.name.toList = .string key.name := by
  constructor <;> rintro ⟨⟩ <;> cases timestamps <;> decide +kernel

/-- The text of a timestamp names no level. -/
theorem ne_name_of_timestamp {timestamp : Yaml.Timestamp}
    (h : l.scalar? = some (.timestamp timestamp)) (level : Level) : l.text ≠ level.name := by
  intro htext
  have hword (timestamps : Bool) : Yaml.ofWord timestamps l.text.toList = .string level.name := by
    rw [htext]
    exact (ofWord_name timestamps).1 level
  obtain ⟨u, hu⟩ := Leaf.exists_string_of_text hword h
  cases hu

/-- The integers are the integer scalars and the doubles that are whole. -/
theorem integer?_toValue {text : String} {n : Int} :
    integer? (v.toValue text) = some n ↔ v = .integer n ∨ v = .double (some n) := by
  cases v with
  | timestamp _ =>
      rw [Scalar.toValue]
      split <;> simp [integer?]
  | _ => simp [Scalar.toValue, integer?]

/-- The Booleans are the Boolean scalars. -/
theorem boolean?_toValue {text : String} {b : Bool} :
    boolean? (v.toValue text) = some b ↔ v = .bool b := by
  cases v with
  | timestamp _ =>
      rw [Scalar.toValue]
      split <;> simp [boolean?]
  | _ => simp [Scalar.toValue, boolean?]

/-- Of the scalars, only the string of its name is read as the name of a level. -/
theorem string?_toValue (h : l.scalar? = some v) {level : Level} :
    string? (v.toValue l.text) = some level.name ↔ v = .string level.name := by
  cases v with
  | timestamp _ =>
      rw [Scalar.toValue]
      split <;> simp [string?, ne_name_of_timestamp h]
  | _ => simp [Scalar.toValue, string?]

/-- The check finds nothing exactly in what the key takes. -/
theorem valueIssue?_eq_none_iff (h : l.scalar? = some v) :
    valueIssue? key (v.toValue l.text) = none ↔ key.Takes v := by
  cases key with
  | maxSteps =>
      simp only [valueIssue?, Key.Takes, ← @integer?_toValue v l.text]
      cases integer? (v.toValue l.text) <;> simp
  | interactive | clearScreen | colour =>
      simp only [valueIssue?, Key.Takes, ← @boolean?_toValue v l.text]
      cases boolean? (v.toValue l.text) <;> simp
  | level =>
      simp only [valueIssue?, Key.Takes, ← string?_toValue h]
      cases string? (v.toValue l.text) <;>
        simp [← Level.isSome_ofName?_iff, Option.isSome_iff_ne_none]

/-! ## setting a value -/

/-- A key takes what fits it. -/
theorem Key.Fits.takes (h : key.Fits v) : key.Takes v := by
  cases key with
  | maxSteps =>
      obtain ⟨n, hv, hlo, _⟩ := h
      exact ⟨n, hv, hlo⟩
  | interactive | clearScreen | colour | level => exact h

/-- The step budget takes the double that wraps, since the check has no upper bound. -/
theorem Key.Wraps.takes (h : key.Wraps v) : key.Takes v := by
  obtain ⟨rfl, rfl⟩ := h
  exact ⟨2 ^ 63, .inr rfl, by decide⟩

/-- A field with the name of a key sets this key. -/
theorem set?_name (s : Settings) (key : Key) (value : Yaml.Value) :
    set? s (key.name, value) = match key with
      | .maxSteps => (budget? value).map fun n => { s with maxSteps := n }
      | .interactive => some { s with interactive := (boolean? value).getD s.interactive }
      | .clearScreen => some { s with clearScreen := (boolean? value).getD s.clearScreen }
      | .colour => some { s with colour := (boolean? value).getD s.colour }
      | .level => some { s with level := ((string? value).bind Level.ofName?).getD s.level } := by
  rw [set?, Key.ofName?_name]
  cases key <;> rfl

/-- The budget that a value comes to: its number if it fits, and the least machine
integer for the double that wraps. -/
theorem budget?_eq_some_iff {n : Int} (h : Key.maxSteps.Takes v) :
    budget? (v.toValue l.text) = some n ↔
      (Key.maxSteps.Fits v ∧ (v = .integer n ∨ v = .double (some n))) ∨
      (Key.maxSteps.Wraps v ∧ n = -2 ^ 63) := by
  obtain ⟨m, rfl | rfl, hm⟩ := h
  · simp only [Scalar.toValue, budget?, Numeral.maxInt, Key.Fits, Key.Wraps]
    grind
  · simp only [Scalar.toValue, budget?, Numeral.maxInt, Numeral.minInt, Key.Fits, Key.Wraps]
    grind

/-- Setting a key leaves the other ones alone. -/
theorem agrees_of_set? {value : Yaml.Value} (h : set? s (key.name, value) = some t) {k : Key}
    (hk : k ≠ key) : t.Agrees s k := by
  rw [set?_name] at h
  cases key with
  | maxSteps =>
      obtain ⟨n, _, rfl⟩ := Option.map_eq_some_iff.mp h
      cases k <;> first | rfl | exact absurd rfl hk
  | interactive | clearScreen | colour | level =>
      cases h
      cases k <;> first | rfl | exact absurd rfl hk

/-- Setting a key to a value that it takes settles it. -/
theorem settles_of_set? (htakes : key.Takes v)
    (h : set? s (key.name, v.toValue l.text) = some t) : t.Settles key v := by
  rw [set?_name] at h
  cases key with
  | maxSteps =>
      obtain ⟨n, hn, rfl⟩ := Option.map_eq_some_iff.mp h
      obtain ⟨hfits, hv⟩ | ⟨hwraps, hn⟩ := (budget?_eq_some_iff htakes).mp hn
      · exact .inl ⟨hfits, hv⟩
      · exact .inr ⟨hwraps, hn⟩
  | interactive | clearScreen | colour =>
      obtain ⟨b, rfl⟩ := htakes
      cases h
      exact .inl ⟨⟨b, rfl⟩, rfl⟩
  | level =>
      obtain ⟨level, rfl⟩ := htakes
      cases h
      refine .inl ⟨⟨level, rfl⟩, ?_⟩
      simp [Has, Scalar.toValue, string?, Level.ofName?_name]

/-- A value that fits, or wraps, can be set. -/
theorem exists_set? (s : Settings) (l : Leaf) (h : key.Fits v ∨ key.Wraps v) :
    ∃ t, set? s (key.name, v.toValue l.text) = some t := by
  rw [set?_name]
  cases key with
  | maxSteps =>
      obtain ⟨n, hn⟩ : ∃ n, budget? (v.toValue l.text) = some n := by
        obtain h | h := h
        · obtain ⟨n, hv, _⟩ := id h
          exact ⟨n, (budget?_eq_some_iff h.takes).mpr (.inl ⟨h, hv⟩)⟩
        · exact ⟨_, (budget?_eq_some_iff h.takes).mpr (.inr ⟨h, rfl⟩)⟩
      exact ⟨_, by rw [hn]; rfl⟩
  | interactive | clearScreen | colour | level => exact ⟨_, rfl⟩

/-! ## entries -/

variable {e : Entry} {entries : List Entry} {fields : Yaml.Fields}

/-- A key without a name is null. -/
theorem scalar?_of_null (h : l.name? = some none) : l.scalar? = some .null := by
  obtain ⟨s, hs, hname⟩ := Option.map_eq_some_iff.mp h
  cases s <;> first | exact hs | cases hname

/-- What is called as a key is the string of this name. -/
theorem scalar?_of_name (h : l.name? = some (some key.name)) :
    l.scalar? = some (.string key.name) := by
  obtain ⟨s, hs, hname⟩ := Option.map_eq_some_iff.mp h
  have hother (htext : l.text = key.name) : s = .string key.name := by
    have hword (timestamps : Bool) : Yaml.ofWord timestamps l.text.toList = .string key.name := by
      rw [htext]
      exact (ofWord_name timestamps).2 key
    obtain ⟨u, rfl⟩ := Leaf.exists_string_of_text hword hs
    exact congrArg Scalar.string (Option.some.inj hname)
  cases s with
  | null => cases hname
  | string u => rw [hs, Option.some.inj hname]
  | bool | integer | double | notFinite | timestamp => rw [hs, hother (Option.some.inj hname)]

/-- The check finds nothing wrong with the entry: its key is null, and the entry is
passed over, or it is a key that takes the value. -/
def Passes (e : Entry) : Prop :=
  e.key.name? = some none ∨
    ∃ key v, e.key.name? = some (some (Key.name key)) ∧ e.value.scalar? = some v ∧ key.Takes v

/-- The entries do not both set a key. -/
def Apart (e e' : Entry) : Prop :=
  ∀ key : Key, e.key.name? = some (some key.name) → e'.key.name? ≠ some (some key.name)

instance : Std.Symm Apart where
  symm _ _ h key hkey' hkey := h key hkey hkey'

/-- Entries with distinct keys do not set one key twice. -/
theorem apart_of_distinct
    (h : entries.Pairwise fun e e' => e.key.scalar? = none ∨ e.key.scalar? ≠ e'.key.scalar?) :
    entries.Pairwise Apart := by
  refine h.imp fun hdistinct key hkey hkey' => ?_
  rw [scalar?_of_name hkey, scalar?_of_name hkey'] at hdistinct
  simp at hdistinct

/-- A field has the name of its key and the value of its scalar. -/
theorem field_eq {name : String} {value : Yaml.Value} (hkey : e.key.name? = some (some name))
    (hvalue : e.value.value? = some value) (hname : e.key.name? = some (some key.name))
    (hv : e.value.scalar? = some v) : name = key.name ∧ value = v.toValue e.value.text := by
  rw [hkey] at hname
  rw [Leaf.value?, hv] at hvalue
  exact ⟨Option.some.inj (Option.some.inj hname), (Option.some.inj hvalue).symm⟩

/-- What the fields of entries without an issue come to. -/
theorem of_foldlM_set? (h : Reads entries fields) (hapart : entries.Pairwise Apart)
    (hpasses : ∀ e ∈ entries, Passes e) (hfold : fields.foldlM set? s = some t) (key : Key) :
    (∀ e ∈ entries, e.key.name? = some (some key.name) →
      ∃ v, e.value.scalar? = some v ∧ t.Settles key v) ∧
    ((∀ e ∈ entries, e.key.name? ≠ some (some key.name)) → t.Agrees s key) := by
  induction h generalizing s with
  | nil =>
      cases hfold
      exact ⟨nofun, fun _ => by cases key <;> rfl⟩
  | @null e es fs hkey _ ih =>
      obtain ⟨_, hapart⟩ := List.pairwise_cons.mp hapart
      obtain ⟨_, hpasses⟩ := List.forall_mem_cons.mp hpasses
      obtain ⟨hset, hunset⟩ := ih hapart hpasses hfold
      refine ⟨List.forall_mem_cons.mpr ⟨fun hname => ?_, hset⟩, fun hnone =>
        hunset fun e he => hnone e (List.mem_cons_of_mem _ he)⟩
      rw [hkey] at hname
      cases hname
  | @field e es fs name value hkey hvalue _ ih =>
      obtain ⟨hfirst, hapart⟩ := List.pairwise_cons.mp hapart
      obtain ⟨hpass, hpasses⟩ := List.forall_mem_cons.mp hpasses
      obtain hnull | ⟨k, v, hname, hv, htakes⟩ := hpass
      · rw [hkey] at hnull
        cases hnull
      obtain ⟨rfl, rfl⟩ := field_eq hkey hvalue hname hv
      rw [List.foldlM_cons] at hfold
      obtain ⟨u, hu, hfold⟩ := Option.bind_eq_some_iff.mp hfold
      obtain ⟨hset, hunset⟩ := ih hapart hpasses hfold
      refine ⟨List.forall_mem_cons.mpr ⟨fun hname => ⟨v, hv, ?_⟩, hset⟩, fun hnone => ?_⟩
      · obtain rfl : k = key := by
          rw [hkey] at hname
          exact Key.name_inj (Option.some.inj (Option.some.inj hname))
        exact (settles_of_set? htakes hu).of_agrees (hunset fun e he => hfirst e he k hkey)
      · have hne : key ≠ k := by
          rintro rfl
          exact hnone e List.mem_cons_self hkey
        exact (hunset fun e he => hnone e (List.mem_cons_of_mem _ he)).trans
          (agrees_of_set? hu hne)

theorem exists_foldlM_set? (h : Reads entries fields)
    (hfits : ∀ e ∈ entries, e.key.name? = some none ∨ ∃ key v,
      e.key.name? = some (some (Key.name key)) ∧ e.value.scalar? = some v ∧
        (key.Fits v ∨ key.Wraps v)) (s : Settings) :
    ∃ t, fields.foldlM set? s = some t := by
  induction h generalizing s with
  | nil => exact ⟨s, rfl⟩
  | null _ _ ih => exact ih (List.forall_mem_cons.mp hfits).2 s
  | @field e es fs name value hkey hvalue _ ih =>
      obtain ⟨hfits, hrest⟩ := List.forall_mem_cons.mp hfits
      obtain hnull | ⟨k, v, hname, hv, hfits⟩ := hfits
      · rw [hkey] at hnull
        cases hnull
      obtain ⟨rfl, rfl⟩ := field_eq hkey hvalue hname hv
      obtain ⟨u, hu⟩ := exists_set? s e.value hfits
      obtain ⟨t, ht⟩ := ih hrest u
      exact ⟨t, by rw [List.foldlM_cons, hu]; exact ht⟩

/-! ## issues -/

/-- The name of the field that an issue is about. -/
def Issue.name : Issue → String
  | .unknownKey name => name
  | .wrongType key _ => key.name
  | .budgetTooSmall => Key.maxSteps.name
  | .unknownLevel => Key.level.name

/-- The entry gives a field of the name, which is none of the keys or a key that does not
take the value. -/
def Offends (e : Entry) (name : String) : Prop :=
  e.key.name? = some (some name) ∧
    ∀ key v, name = Key.name key → e.value.scalar? = some v → ¬ key.Takes v

/-- An issue names the field that it is about. -/
theorem name_of_issue? {f : String × Yaml.Value} {i : Issue} (h : issue? f = some i) :
    i.name = f.1 := by
  unfold issue? at h
  split at h
  · next key hkey =>
      rw [Key.ofName?_eq_some_iff] at hkey
      rw [hkey]
      unfold valueIssue? at h
      cases key <;> grind [Issue.name, Key.name]
  · exact (Option.some.inj h) ▸ rfl

/-- A field has an issue exactly if its entry offends. -/
theorem issue?_eq_none_iff {name : String} {value : Yaml.Value}
    (hname : e.key.name? = some (some name)) (hvalue : e.value.value? = some value) :
    issue? (name, value) = none ↔ ¬ Offends e name := by
  obtain ⟨v, hv, rfl⟩ := Option.map_eq_some_iff.mp hvalue
  unfold issue? Offends
  dsimp only
  cases hkey : Key.ofName? name with
  | none =>
      have hunknown (key : Key) : name ≠ key.name := fun h => by
        rw [Key.ofName?_eq_some_iff.mpr h] at hkey
        cases hkey
      exact iff_of_false nofun
        (not_not_intro ⟨hname, fun key _ h => absurd h (hunknown key)⟩)
  | some key =>
      obtain rfl := Key.ofName?_eq_some_iff.mp hkey
      dsimp only
      rw [valueIssue?_eq_none_iff hv]
      constructor
      · exact fun htakes hoffends => hoffends.2 key v rfl hv htakes
      · intro h
        refine Classical.byContradiction fun htakes => h ⟨hname, fun k w hk hw => ?_⟩
        rw [hv, Option.some.injEq] at hw
        rwa [← Key.name_inj hk, ← hw]

/-- The issues with the fields of a document. -/
def offences (fields : Yaml.Fields) : List Issue :=
  (Yaml.Fields.latest fields).filterMap issue?

/-- Fields are dropped if and only if a name occurs twice. -/
theorem length_latest_lt_iff :
    (Yaml.Fields.latest fields).length < fields.length ↔ ¬ (fields.map (·.1)).Nodup := by
  constructor
  · intro h hnodup
    rw [Yaml.Fields.latest_eq_self hnodup] at h
    exact Nat.lt_irrefl _ h
  · intro h
    refine Nat.lt_of_le_of_ne Yaml.latest_sublist.length_le fun hlength => h ?_
    rw [← Yaml.latest_sublist.eq_of_length hlength]
    exact Yaml.nodup_latest

theorem isEmpty_issues_iff :
    (((Yaml.Fields.latest fields).filterMap issue?).map Issue.text).isEmpty = true ↔
      offences fields = [] := by
  rw [List.isEmpty_iff, List.map_eq_nil_iff]
  rfl

/-- Settings are made of fields without offences and repetitions, one value after the
other. -/
theorem ofFields_eq_ok_iff :
    ofFields fields = .ok s ↔
      offences fields = [] ∧ (fields.map (·.1)).Nodup ∧ fields.foldlM set? {} = some s := by
  simp only [ofFields, isEmpty_issues_iff, length_latest_lt_iff]
  split
  · next hnil =>
      split
      · next hrepeated => exact iff_of_false nofun fun h => hrepeated h.2.1
      · next hnodup =>
          rw [and_iff_right hnil, and_iff_right (not_not.mp hnodup)]
          cases fields.foldlM set? {} <;> simp
  · next hne => exact iff_of_false nofun fun h => hne h.1

/-- Fields with offences are refused with the sorted texts of these. -/
theorem ofFields_eq_invalid_iff {issues : List String} :
    ofFields fields = .error (.invalid issues) ↔
      offences fields ≠ [] ∧
        issues = ((offences fields).map Issue.text).mergeSort fun a b => decide (a ≤ b) := by
  simp only [ofFields, isEmpty_issues_iff]
  split
  · next hnil =>
      refine iff_of_false ?_ fun h => h.1 hnil
      split
      · nofun
      · split <;> nofun
  · next hne =>
      rw [and_iff_right hne, Except.error.injEq, Error.invalid.injEq]
      exact eq_comm

/-- A text is accepted if its fields can be read and make settings. -/
theorem parse_eq_none_iff {text : String} :
    parse text = (s, none) ↔ ∃ fields, Yaml.read? text = some fields ∧ ofFields fields = .ok s := by
  unfold parse
  cases Yaml.read? text with
  | none => simp
  | some fields =>
      simp only [Option.some.injEq, exists_eq_left']
      cases ofFields fields with
      | ok s => simp
      | error e => cases e <;> simp

/-- A text is refused as invalid, with default settings, if its fields can be read and
are refused so. -/
theorem parse_eq_invalid_iff {text : String} {issues : List String} :
    parse text = (s, some (.invalid issues)) ↔
      s = {} ∧ ∃ fields, Yaml.read? text = some fields ∧
        ofFields fields = .error (.invalid issues) := by
  unfold parse
  cases Yaml.read? text with
  | none => simp
  | some fields =>
      simp only [Option.some.injEq, exists_eq_left']
      cases ofFields fields with
      | ok s => simp
      | error e => cases e <;> simp [eq_comm]

/-! ## keys in order -/

/-- No name of a key is itself base 64, and null has no text that is such a name, plain
or in base 64. -/
theorem base64?_names :
    (∀ key : Key, (Text.base64? key.name.toList).map
      (fun os => String.ofList (Text.ofOctets os)) = none) ∧
    ∀ w ∈ Yaml.nullWords, ∀ key : Key, w ≠ key.name ∧
      (Text.base64? w.toList).map (fun os => String.ofList (Text.ofOctets os)) ≠
        some key.name := by
  constructor
  · rintro ⟨⟩ <;> decide +kernel
  · rintro w hw ⟨⟩ <;> revert w <;> decide +kernel

/-- Null is not written as the name of a key, in plain text or in base 64. -/
theorem text_ne_of_null {l' : Leaf} (hnull : l.scalar? = some .null)
    (hkey : l'.scalar? = some (.string key.name)) : l.text ≠ l'.text := by
  intro htext
  obtain ⟨hplain, hoctets⟩ := base64?_names.2 _ (Leaf.text_of_null hnull) key
  rw [htext] at hplain hoctets
  exact (Leaf.text_of_string hkey).elim hplain hoctets

/-- The names of keys are written differently, in plain text and in base 64. -/
theorem text_ne_of_name {l' : Leaf} {k : Key} (hl : l.scalar? = some (.string key.name))
    (hl' : l'.scalar? = some (.string k.name)) (hne : key ≠ k) : l.text ≠ l'.text := by
  have hoctets := base64?_names.1
  intro htext
  obtain h | h := Leaf.text_of_string hl <;> obtain h' | h' := Leaf.text_of_string hl'
  · exact hne (Key.name_inj (h.symm.trans (htext.trans h')))
  · rw [← htext, h, hoctets] at h'
    cases h'
  · rw [htext, h', hoctets] at h
    cases h
  · rw [htext, h'] at h
    exact hne (Key.name_inj (Option.some.inj h).symm)

/-- The key of an entry that passes. -/
theorem Passes.scalar? (h : Passes e) :
    e.key.scalar? = some .null ∨ ∃ key : Key, e.key.scalar? = some (.string key.name) := by
  obtain hnull | ⟨key, _, hname, _⟩ := h
  · exact .inl (scalar?_of_null hnull)
  · exact .inr ⟨key, scalar?_of_name hname⟩

/-- Different keys of entries that pass are written differently. -/
theorem pairwise_text_ne (hpasses : ∀ e ∈ entries, Passes e)
    (h : entries.Pairwise fun e e' => e.key.scalar? = none ∨ e.key.scalar? ≠ e'.key.scalar?) :
    entries.Pairwise fun e e' => e.key.text ≠ e'.key.text := by
  refine h.imp_of_mem fun {e e'} he he' hdistinct => ?_
  obtain hkey | ⟨k, hkey⟩ := (hpasses e he).scalar? <;>
    obtain hkey' | ⟨k', hkey'⟩ := (hpasses e' he').scalar?
  · rw [hkey, hkey'] at hdistinct
    simp at hdistinct
  · exact text_ne_of_null hkey hkey'
  · exact (text_ne_of_null hkey' hkey).symm
  · refine text_ne_of_name hkey hkey' ?_
    rintro rfl
    rw [hkey, hkey'] at hdistinct
    simp at hdistinct

/-- An entry that passes does not merge. -/
theorem Passes.isMerge_eq_false (h : Passes e) : e.key.node.isMerge = false := by
  refine Bool.eq_false_iff.mpr fun hmerge => ?_
  have hname := Leaf.name?_of_isMerge hmerge
  obtain hnull | ⟨key, _, hkey, _⟩ := h
  · rw [hname] at hnull
    cases hnull
  · rw [hname] at hkey
    cases key <;> exact absurd hkey (by decide)

/-! ## flat settings files -/

variable {text : String} {doc : Option Yaml.Node}

/-- What a key takes is a number, a Boolean or a string. -/
theorem toValue_ne_other (h : key.Takes v) (text : String) : v.toValue text ≠ .other := by
  cases key with
  | maxSteps => obtain ⟨n, rfl | rfl, _⟩ := h <;> nofun
  | interactive | clearScreen | colour =>
      obtain ⟨b, rfl⟩ := h
      nofun
  | level =>
      obtain ⟨level, rfl⟩ := h
      nofun

/-- An entry that has been read passes unless it offends. -/
theorem passes_iff (h : Reads entries fields) (he : e ∈ entries) :
    Passes e ↔ ∀ name, ¬ Offends e name := by
  constructor
  · rintro (hnull | ⟨key, v, hkey, hv, htakes⟩) name ⟨hname, hoffends⟩
    · rw [hnull] at hname
      cases hname
    · rw [hkey, Option.some.injEq, Option.some.injEq] at hname
      exact hoffends key v hname.symm hv htakes
  · intro hall
    obtain hnull | ⟨name, value, hname, hvalue⟩ := h.exists_of_mem he
    · exact .inl hnull
    · refine Classical.byContradiction fun hfails =>
        hall name ⟨hname, fun key v hkey hv htakes => ?_⟩
      exact hfails (.inr ⟨key, v, hkey ▸ hname, hv, htakes⟩)

/-- The issues with the fields of entries are about those that offend. -/
theorem mem_names_offences_iff (h : Reads entries fields) (hapart : entries.Pairwise Apart)
    {name : String} :
    name ∈ (offences fields).map Issue.name ↔ ∃ e ∈ entries, Offends e name := by
  constructor
  · intro hmem
    obtain ⟨i, hi, rfl⟩ := List.mem_map.mp hmem
    obtain ⟨f, hf, hissue⟩ := List.mem_filterMap.mp hi
    have hfield : (f.1, f.2) ∈ fields := Yaml.latest_sublist.subset hf
    obtain ⟨e, he, hname, hvalue⟩ := h.mem_iff.mp hfield
    refine ⟨e, he, name_of_issue? hissue ▸ Classical.byContradiction fun hnot => ?_⟩
    rw [(issue?_eq_none_iff hname hvalue).mpr hnot] at hissue
    cases hissue
  · rintro ⟨e, he, hoffends⟩
    obtain hnull | ⟨name', value, hname, hvalue⟩ := h.exists_of_mem he
    · rw [hoffends.1] at hnull
      cases hnull
    rw [hoffends.1, Option.some.injEq, Option.some.injEq] at hname
    subst hname
    obtain ⟨g, hg, hgname⟩ := Yaml.exists_mem_latest (h.mem_iff.mpr ⟨e, he, hoffends.1, hvalue⟩)
    have hfield : (g.1, g.2) ∈ fields := Yaml.latest_sublist.subset hg
    obtain ⟨e', he', hname', hvalue'⟩ := h.mem_iff.mp hfield
    rw [show g.1 = name from hgname] at hname'
    -- Only the name of a key stands for one entry; any other name offends wherever it is.
    have hoffends' : Offends e' name := by
      by_cases hkey : ∃ key : Key, name = key.name
      · obtain ⟨key, rfl⟩ := hkey
        have heq : e = e' := Classical.byContradiction fun hne =>
          hapart.forall he he' hne key hoffends.1 hname'
        exact heq ▸ hoffends
      · exact ⟨hname', fun key _ h => absurd ⟨key, h⟩ hkey⟩
    cases hissue : issue? g with
    | none =>
        rw [show g = (name, g.2) from Prod.ext hgname rfl] at hissue
        exact absurd hoffends' ((issue?_eq_none_iff hname' hvalue').mp hissue)
    | some i =>
        refine List.mem_map.mpr ⟨i, List.mem_filterMap.mpr ⟨g, hg, hissue⟩, ?_⟩
        rw [name_of_issue? hissue, hgname]

/-- A field has at most one issue. -/
theorem nodup_names_offences : ((offences fields).map Issue.name).Nodup := by
  have hsublist (fs : Yaml.Fields) :
      List.Sublist ((fs.filterMap issue?).map Issue.name) (fs.map (·.1)) := by
    induction fs with
    | nil => exact .slnil
    | cons f fs ih =>
        rw [List.filterMap_cons, List.map_cons]
        cases hissue : issue? f with
        | none => exact ih.cons f.1
        | some i =>
            rw [← name_of_issue? hissue]
            exact ih.cons_cons i.name
  exact (hsublist _).nodup Yaml.nodup_latest

/-- Entries have no offences exactly if all of them pass. -/
theorem offences_eq_nil_iff (h : Reads entries fields) (hapart : entries.Pairwise Apart) :
    offences fields = [] ↔ ∀ e ∈ entries, Passes e := by
  rw [← List.map_eq_nil_iff (f := Issue.name), List.eq_nil_iff_forall_not_mem]
  simp only [mem_names_offences_iff h hapart, not_exists, not_and]
  exact ⟨fun hall e he => (passes_iff h he).mpr fun name => hall name e he,
    fun hall name e he => (passes_iff h he).mp (hall e he) name⟩

/-- Where all entries pass, no name occurs twice. -/
theorem nodup_names (h : Reads entries fields) (hpasses : ∀ e ∈ entries, Passes e)
    (hapart : entries.Pairwise Apart) : (fields.map (·.1)).Nodup := by
  induction h with
  | nil => exact .nil
  | null _ _ ih => exact ih (List.forall_mem_cons.mp hpasses).2 (List.pairwise_cons.mp hapart).2
  | @field e es fs name value hkey hvalue hrest ih =>
      obtain ⟨hfirst, hapart⟩ := List.pairwise_cons.mp hapart
      obtain ⟨hpass, hpasses⟩ := List.forall_mem_cons.mp hpasses
      refine List.nodup_cons.mpr ⟨fun hmem => ?_, ih hpasses hapart⟩
      obtain ⟨f, hf, hname⟩ := List.mem_map.mp hmem
      have hfield : (f.1, f.2) ∈ fs := hf
      obtain ⟨e', he', hkey', _⟩ := hrest.mem_iff.mp hfield
      obtain hnull | ⟨k, _, hk, _⟩ := hpass
      · rw [hkey] at hnull
        cases hnull
      · rw [hname, ← hkey, hk] at hkey'
        exact hfirst e' he' k hk hkey'

/-- A document is accepted only if all of its entries pass and all values fit. -/
theorem exists_reads_of_parse (hdoc : Yaml.firstDocument? text = some doc)
    (hflat : Yaml.Flat doc entries) (h : parse text = (s, none)) :
    ∃ fields, Reads entries fields ∧ (∀ e ∈ entries, Passes e) ∧
      fields.foldlM set? {} = some s := by
  obtain ⟨fields, hread, hfields⟩ := parse_eq_none_iff.mp h
  obtain ⟨_, _, hreads, _⟩ := (Yaml.read?_eq_some_iff hdoc hflat).mp hread
  obtain ⟨hoffences, _, hfold⟩ := ofFields_eq_ok_iff.mp hfields
  exact ⟨fields, hreads,
    (offences_eq_nil_iff hreads (apart_of_distinct hflat.distinct)).mp hoffences, hfold⟩

/-- A document with entries in order is accepted. -/
theorem exists_parse_of_fits (hdoc : Yaml.firstDocument? text = some doc)
    (hflat : Yaml.Flat doc entries)
    (hfits : ∀ e ∈ entries, e.key.name? = some none ∨ ∃ key v,
      e.key.name? = some (some (Key.name key)) ∧ e.value.scalar? = some v ∧
        (key.Fits v ∨ key.Wraps v)) :
    ∃ s, parse text = (s, none) := by
  have hpasses : ∀ e ∈ entries, Passes e := fun e he =>
    (hfits e he).imp_right fun ⟨key, v, hname, hv, hfits⟩ =>
      ⟨key, v, hname, hv, hfits.elim Key.Fits.takes Key.Wraps.takes⟩
  have hapart := apart_of_distinct hflat.distinct
  obtain ⟨fields, hreads⟩ := Yaml.exists_reads fun e he =>
    (hfits e he).imp_right fun ⟨key, v, hname, hv, _⟩ =>
      ⟨key.name, v.toValue e.value.text, hname, by rw [Leaf.value?, hv]; rfl⟩
  have hother : ∀ f ∈ Yaml.Fields.latest fields, f.2 ≠ .other := by
    intro f hf
    have hfield : (f.1, f.2) ∈ fields := Yaml.latest_sublist.subset hf
    obtain ⟨e, he, hname, hvalue⟩ := hreads.mem_iff.mp hfield
    obtain hnull | ⟨key, v, _, hv, htakes⟩ := hpasses e he
    · rw [hnull] at hname
      cases hname
    · rw [Leaf.value?, hv] at hvalue
      exact Option.some.inj hvalue ▸ toValue_ne_other htakes e.value.text
  have hread := (Yaml.read?_eq_some_iff hdoc hflat).mpr
    ⟨pairwise_text_ne hpasses hflat.distinct, fun e he => (hpasses e he).isMerge_eq_false, hreads,
      hother⟩
  obtain ⟨s, hs⟩ := exists_foldlM_set? hreads hfits {}
  exact ⟨s, parse_eq_none_iff.mpr ⟨fields, hread, ofFields_eq_ok_iff.mpr
    ⟨(offences_eq_nil_iff hreads hapart).mpr hpasses, nodup_names hreads hpasses hapart, hs⟩⟩⟩

/-- What the settings of an accepted document are. -/
theorem of_parse (hdoc : Yaml.firstDocument? text = some doc) (hflat : Yaml.Flat doc entries)
    (h : parse text = (s, none)) (key : Key) :
    (∀ e ∈ entries, e.key.name? = some (some key.name) →
      ∃ v, e.value.scalar? = some v ∧ s.Settles key v) ∧
    ((∀ e ∈ entries, e.key.name? ≠ some (some key.name)) → s.Agrees {} key) := by
  obtain ⟨fields, hreads, hpasses, hfold⟩ := exists_reads_of_parse hdoc hflat h
  exact of_foldlM_set? hreads (apart_of_distinct hflat.distinct) hpasses hfold key

/-- The issues of a document that is refused with issues. -/
theorem of_parse_invalid (hdoc : Yaml.firstDocument? text = some doc)
    (hflat : Yaml.Flat doc entries) {issues : List String}
    (h : parse text = (s, some (.invalid issues))) :
    s = {} ∧ (Yaml.read? text).isSome = true ∧ ∃ offences : List Issue, offences ≠ [] ∧
      issues.Perm (offences.map Issue.text) ∧ (offences.map Issue.name).Nodup ∧
      ∀ name, name ∈ offences.map Issue.name ↔ ∃ e ∈ entries, Offends e name := by
  obtain ⟨rfl, fields, hread, hfields⟩ := parse_eq_invalid_iff.mp h
  obtain ⟨_, _, hreads, _⟩ := (Yaml.read?_eq_some_iff hdoc hflat).mp hread
  refine ⟨rfl, Option.isSome_iff_exists.mpr ⟨fields, hread⟩, offences fields, ?_⟩
  obtain ⟨hne, rfl⟩ := ofFields_eq_invalid_iff.mp hfields
  exact ⟨hne, List.mergeSort_perm _ _, nodup_names_offences,
    fun name => mem_names_offences_iff hreads (apart_of_distinct hflat.distinct)⟩

/-- A document that can be read and has an offence is refused with its issues. -/
theorem exists_parse_invalid (hdoc : Yaml.firstDocument? text = some doc)
    (hflat : Yaml.Flat doc entries) (hread : (Yaml.read? text).isSome = true)
    (hoffends : ∃ e ∈ entries, ∃ name, Offends e name) :
    ∃ issues, parse text = ({}, some (.invalid issues)) := by
  obtain ⟨fields, hread⟩ := Option.isSome_iff_exists.mp hread
  obtain ⟨_, _, hreads, _⟩ := (Yaml.read?_eq_some_iff hdoc hflat).mp hread
  have hne : offences fields ≠ [] := by
    intro hnil
    obtain ⟨e, he, name, hname⟩ := hoffends
    have hpasses := (offences_eq_nil_iff hreads (apart_of_distinct hflat.distinct)).mp hnil
    exact (passes_iff hreads he).mp (hpasses e he) name hname
  exact ⟨_, parse_eq_invalid_iff.mpr
    ⟨rfl, fields, hread, ofFields_eq_invalid_iff.mpr ⟨hne, rfl⟩⟩⟩

/-- **Settings over the defaults**.  A flat document, whose keys are different, is
accepted exactly if each of its keys is null or is one of the five with a value that
fits: an integral number from 1 to the greatest machine integer, a boolean, the name of
a level; or with the double 2^63 for a step budget, which wraps around.  Then every
setting has the value of its key if there is that key, and the default otherwise, and
the step budget is at least 1 unless it has wrapped.  A document that can be read but
has keys that offend is refused with one issue for each name of these, and leaves the
defaults. -/
theorem flat_document_overlays_defaults (hdoc : Yaml.firstDocument? text = some doc)
    (hflat : Yaml.Flat doc entries) :
    ((parse text).2 = none ↔ ∀ e ∈ entries, e.key.name? = some none ∨ ∃ key v,
      e.key.name? = some (some (Key.name key)) ∧ e.value.scalar? = some v ∧
        (key.Fits v ∨ key.Wraps v)) ∧
    ((parse text).2 = none →
      (∀ key : Key,
        (∀ e ∈ entries, e.key.name? = some (some key.name) →
          ∃ v, e.value.scalar? = some v ∧ (parse text).1.Settles key v) ∧
        ((∀ e ∈ entries, e.key.name? ≠ some (some key.name)) → (parse text).1.Agrees {} key)) ∧
      (1 ≤ (parse text).1.maxSteps ↔
        ∀ e ∈ entries, e.key.name? = some (some Key.maxSteps.name) →
          e.value.scalar? ≠ some (.double (some (2 ^ 63))))) ∧
    ((∃ issues, (parse text).2 = some (.invalid issues)) ↔
      (Yaml.read? text).isSome = true ∧ ∃ e ∈ entries, ∃ name, Offends e name) ∧
    ∀ issues, (parse text).2 = some (.invalid issues) →
      (parse text).1 = {} ∧ ∃ offences : List Issue,
        issues.Perm (offences.map Issue.text) ∧ (offences.map Issue.name).Nodup ∧
        ∀ name, name ∈ offences.map Issue.name ↔ ∃ e ∈ entries, Offends e name := by
  refine ⟨⟨fun hnone e he => ?_, fun hfits => ?_⟩, fun hnone => ?_, ⟨?_, ?_⟩,
    fun issues hissues => ?_⟩
  · have hparse : parse text = ((parse text).1, none) := Prod.ext rfl hnone
    obtain ⟨fields, hreads, hpasses, _⟩ := exists_reads_of_parse hdoc hflat hparse
    refine (hpasses e he).imp_right fun ⟨key, v, hname, hv, htakes⟩ => ⟨key, v, hname, hv, ?_⟩
    obtain ⟨v', hv', hsettles⟩ := (of_parse hdoc hflat hparse key).1 e he hname
    rw [hv, Option.some.injEq] at hv'
    exact hv' ▸ hsettles.imp And.left And.left
  · obtain ⟨s, hs⟩ := exists_parse_of_fits hdoc hflat hfits
    rw [hs]
  · have hparse : parse text = ((parse text).1, none) := Prod.ext rfl hnone
    refine ⟨of_parse hdoc hflat hparse, ?_⟩
    obtain ⟨hset, hunset⟩ := of_parse hdoc hflat hparse .maxSteps
    constructor
    · intro hle e he hname hwraps
      obtain ⟨v, hv, hsettles⟩ := hset e he hname
      rw [hwraps, Option.some.injEq] at hv
      exact hsettles.one_le_iff.mp hle hv.symm
    · intro hnot
      by_cases hkey : ∀ e ∈ entries, e.key.name? ≠ some (some Key.maxSteps.name)
      · rw [show (parse text).1.maxSteps = 1000 from hunset hkey]
        decide
      · simp only [not_forall, not_not] at hkey
        obtain ⟨e, he, hname⟩ := hkey
        obtain ⟨v, hv, hsettles⟩ := hset e he hname
        refine hsettles.one_le_iff.mpr fun hwraps => hnot e he hname ?_
        rw [hv, hwraps]
  · rintro ⟨issues, hissues⟩
    obtain ⟨_, hread, offences, hne, _, _, hnames⟩ :=
      of_parse_invalid hdoc hflat (s := (parse text).1) (Prod.ext rfl hissues)
    obtain ⟨i, hi⟩ := List.exists_mem_of_ne_nil offences hne
    obtain ⟨e, he, hoffends⟩ := (hnames _).mp (List.mem_map_of_mem hi)
    exact ⟨hread, e, he, i.name, hoffends⟩
  · rintro ⟨hread, hoffends⟩
    obtain ⟨issues, hissues⟩ := exists_parse_invalid hdoc hflat hread hoffends
    exact ⟨issues, by rw [hissues]⟩
  · obtain ⟨hdefaults, _, offences, _, hrest⟩ :=
      of_parse_invalid hdoc hflat (s := (parse text).1) (Prod.ext rfl hissues)
    exact ⟨hdefaults, offences, hrest⟩

/-- A document with a level and a hexadecimal step budget is flat and accepted; colour,
which it does not mention, is as in the defaults. -/
theorem flat_document_overlays_defaults_hexadecimal :
    ∃ doc entries,
      Yaml.firstDocument? "log_level: debug\nmax_steps: 0x10\n" = some doc ∧
      Yaml.Flat doc entries ∧
      (parse "log_level: debug\nmax_steps: 0x10\n").2 = none ∧
      (parse "log_level: debug\nmax_steps: 0x10\n").1.maxSteps = 16 ∧
      (parse "log_level: debug\nmax_steps: 0x10\n").1.Has .level (.string "debug") ∧
      (parse "log_level: debug\nmax_steps: 0x10\n").1.colour = true := by
  let level : Entry := ⟨⟨none, true, "log_level"⟩, ⟨none, true, "debug"⟩⟩
  let budget : Entry := ⟨⟨none, true, "max_steps"⟩, ⟨none, true, "0x10"⟩⟩
  have hdoc : Yaml.firstDocument? "log_level: debug\nmax_steps: 0x10\n" =
      some (some (.mapping ([level, budget].map Entry.nodes))) :=
    Yaml.firstDocument?_of_entries? (by decide +kernel)
  have hflat : Yaml.Flat (some (.mapping ([level, budget].map Entry.nodes))) [level, budget] :=
    .mapping (by decide +kernel)
  have hlevel : level.key.name? = some (some Key.level.name) := by decide +kernel
  have hbudget : budget.key.name? = some (some Key.maxSteps.name) := by decide +kernel
  have hdebug : level.value.scalar? = some (.string Level.debug.name) := by decide +kernel
  have hsixteen : budget.value.scalar? = some (.integer 16) := by decide +kernel
  obtain ⟨haccepted, hsettings, _⟩ := flat_document_overlays_defaults hdoc hflat
  have hnone := haccepted.mpr (List.forall_mem_cons.mpr
    ⟨.inr ⟨_, _, hlevel, hdebug, .inl ⟨.debug, rfl⟩⟩, List.forall_mem_singleton.mpr
      (.inr ⟨_, _, hbudget, hsixteen, .inl ⟨16, .inl rfl, by decide, by decide⟩⟩)⟩)
  obtain ⟨hkeys, _⟩ := hsettings hnone
  refine ⟨_, _, hdoc, hflat, hnone, ?_, ?_, ?_⟩
  · obtain ⟨v, hv, hsettles⟩ := (hkeys .maxSteps).1 budget (by simp) hbudget
    rw [hsixteen, Option.some.injEq] at hv
    subst hv
    obtain ⟨_, h | h⟩ | ⟨⟨_, h⟩, _⟩ := hsettles
    · exact (Scalar.integer.inj h).symm
    · cases h
    · cases h
  · obtain ⟨v, hv, hsettles⟩ := (hkeys .level).1 level (by simp) hlevel
    rw [hdebug, Option.some.injEq] at hv
    subst hv
    obtain ⟨_, h⟩ | ⟨⟨h, _⟩, _⟩ := hsettles
    · exact h
    · cases h
  · exact (hkeys .colour).2 (by decide +kernel)

/-- The double 2^63 is no budget that fits, but is accepted, and taken for the least
machine integer.  A null key is none of the five, and is passed over. -/
theorem budget_wraps :
    (∃ doc e v,
      Yaml.firstDocument? "max_steps: 9223372036854775808.0\n" = some doc ∧ Yaml.Flat doc [e] ∧
      e.key.name? = some (some Key.maxSteps.name) ∧ e.value.scalar? = some v ∧
      ¬ Key.maxSteps.Fits v) ∧
    parse "max_steps: 9223372036854775808.0\n" = ({ maxSteps := -2 ^ 63 }, none) ∧
    (⟨none, true, "~"⟩ : Leaf).name? = some none ∧ parse "~: 5\n" = ({}, none) := by
  refine ⟨?_, by decide +kernel⟩
  let budget : Entry := ⟨⟨none, true, "max_steps"⟩, ⟨none, true, "9223372036854775808.0"⟩⟩
  have hdoc : Yaml.firstDocument? "max_steps: 9223372036854775808.0\n" =
      some (some (.mapping ([budget].map Entry.nodes))) :=
    Yaml.firstDocument?_of_entries? (by decide +kernel)
  refine ⟨_, budget, .double (some (2 ^ 63)), hdoc, .mapping (by decide +kernel),
    by decide +kernel, by decide +kernel, ?_⟩
  rintro ⟨n, h | h, _, hle⟩
  · cases h
  · cases h
    exact absurd hle (by decide)

end SecdMachine.Settings
