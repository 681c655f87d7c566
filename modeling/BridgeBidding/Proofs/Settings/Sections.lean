import BridgeBidding.Proofs.Value.Names
import BridgeBidding.Settings

/-!
# Making sections records

Before a layer is laid over settings, each of their sections is made a record.  This succeeds just
for the values that `Value.ActsAsRecord` describes (`Settings.fieldsOf_succeeds_iff`), and where it
fails the error is none of the configuration (`Settings.not_isConfiguration_of_normalized`).  Where
it succeeds every section is found again under its name (`Settings.get?_normalized_eq_some`).
-/

set_option autoImplicit false
set_option relaxedAutoImplicit false

namespace BridgeBidding

open Success

namespace Value

/-- The value is a record. -/
def IsRecord (value : Value) : Prop := ∃ fields, value = record fields

/-- The value can be taken as a pair with a name: two items of which the first can be a name, two
characters, or the two names of a record. -/
inductive IsPair : Value → Prop
  | items {name value : Value} (hname : (Settings.nameOf? name).isSome) :
      IsPair (list [name, value])
  | characters {content : String} (hlength : content.toList.length = 2) : IsPair (text content)
  | names (first second : String × Value) : IsPair (record [first, second])

/-- The value can be made a record: it is one, or it is a list of pairs, or the text without any
characters. -/
inductive ActsAsRecord : Value → Prop
  | record (fields : Fields) : ActsAsRecord (.record fields)
  | pairs {items : List Value} (hitems : ∀ item ∈ items, item.IsPair) : ActsAsRecord (list items)
  | void : ActsAsRecord (text "")

theorem IsRecord.actsAsRecord {value : Value} (h : value.IsRecord) : value.ActsAsRecord := by
  obtain ⟨fields, rfl⟩ := h
  exact .record fields

end Value

/-- The error is one of the configuration: the document, the entry of the convention or a section
that overrides another one is not a record.  The other errors are those of making a section a record
that is none. -/
def SettingsError.IsConfiguration : SettingsError → Prop
  | noConventions _ | entryNotRecord _ _ | sectionNotRecord _ _ _ => True
  | _ => False

namespace Settings

variable {settings next : Settings} {name : String} {value : Value} {error : SettingsError}

/-! ### Making a section a record -/

theorem exists_pairOf_iff (place : Nat) {item : Value} :
    (∃ name value key, pairOf place item = .ok (name, value) ∧ nameOf? name = some key) ↔
      item.IsPair := by
  constructor
  · rintro ⟨name, value, key, hpair, hname⟩
    unfold pairOf at hpair
    split at hpair
    case h_1 =>
      cases hpair
      exact .items (Option.isSome_iff_exists.mpr ⟨key, hname⟩)
    case h_3 content =>
      split at hpair
      case h_1 hcontent => exact .characters (congrArg List.length hcontent)
      case h_2 => cases hpair
    case h_4 => exact .names _ _
    all_goals cases hpair
  · rintro (hname | hlength | ⟨first, second⟩)
    case items name value =>
      obtain ⟨key, hkey⟩ := Option.isSome_iff_exists.mp hname
      exact ⟨name, value, key, rfl, hkey⟩
    case characters content =>
      obtain ⟨name, value, hcontent⟩ := List.length_eq_two.mp hlength
      refine ⟨.text name.toString, .text value.toString, _, ?_, rfl⟩
      rw [pairOf, hcontent]
    case names => exact ⟨.text first.1, .text second.1, _, rfl, rfl⟩

theorem pairsFrom_succeeds_iff (pairs : List (PairName × Value)) (place : Nat)
    {items : List Value} :
    (∃ made, pairsFrom pairs place items = .ok made) ↔ ∀ item ∈ items, item.IsPair := by
  induction items generalizing pairs place with
  | nil => exact ⟨fun _ ↦ List.forall_mem_nil _, fun _ ↦ ⟨pairs, rfl⟩⟩
  | cons item rest ih =>
    rw [List.forall_mem_cons, ← exists_pairOf_iff place]
    constructor
    · rintro ⟨made, h⟩
      obtain ⟨⟨name, value⟩, hpair, h⟩ := bind_eq_ok_iff.mp h
      dsimp only at h
      split at h
      case h_1 key hname => exact ⟨⟨name, value, key, hpair, hname⟩, (ih _ _).mp ⟨made, h⟩⟩
      case h_2 => cases h
    · rintro ⟨⟨name, value, key, hpair, hname⟩, hrest⟩
      obtain ⟨made, h⟩ := (ih _ _).mpr hrest
      refine ⟨made, ?_⟩
      rw [pairsFrom, hpair, ok_bind]
      dsimp only
      rw [hname]
      exact h

theorem fieldsOfPairs_succeeds_iff {items : List Value} :
    (∃ fields, fieldsOfPairs items = .ok fields) ↔ ∀ item ∈ items, item.IsPair := by
  rw [← pairsFrom_succeeds_iff [] 0]
  constructor
  · rintro ⟨fields, h⟩
    obtain ⟨made, hmade, -⟩ := bind_eq_ok_iff.mp h
    exact ⟨made, hmade⟩
  · rintro ⟨made, hmade⟩
    exact ⟨_, by rw [fieldsOfPairs, hmade, ok_bind, pure_eq_ok]⟩

/-- A single character is no pair, so of the texts only the one without any can be made a record. -/
theorem fieldsOf_succeeds_iff : (∃ fields, fieldsOf value = .ok fields) ↔ value.ActsAsRecord := by
  constructor
  · rintro ⟨fields, h⟩
    cases value with
    | record => exact .record _
    | list items => exact .pairs (fieldsOfPairs_succeeds_iff.mp ⟨fields, h⟩)
    | text content =>
      have hpairs := fieldsOfPairs_succeeds_iff.mp ⟨fields, h⟩
      cases hcontent : content.toList with
      | nil =>
        obtain rfl := String.toList_inj.mp (hcontent.trans String.toList_empty.symm)
        exact .void
      | cons first rest =>
        have hfirst := hpairs (.text first.toString) (by rw [hcontent]; exact List.mem_cons_self)
        cases hfirst with
        | characters hlength => simp at hlength
    | _ => cases h
  · rintro (fields | hitems | _)
    case record => exact ⟨fields, rfl⟩
    case pairs => exact fieldsOfPairs_succeeds_iff.mpr hitems
    case void => exact ⟨[], rfl⟩

/-! ### Errors of making a section a record -/

theorem not_isConfiguration_of_pairOf {place : Nat} {item : Value}
    (h : pairOf place item = .error error) : ¬error.IsConfiguration := by
  unfold pairOf at h
  split at h
  case h_1 | h_4 => cases h
  case h_3 =>
    split at h
    · cases h
    · cases h
      exact not_false
  case h_2 | h_5 | h_6 =>
    cases h
    exact not_false

theorem not_isConfiguration_of_pairsFrom {pairs : List (PairName × Value)} {place : Nat}
    {items : List Value} (h : pairsFrom pairs place items = .error error) :
    ¬error.IsConfiguration := by
  induction items generalizing pairs place with
  | nil => cases h
  | cons item rest ih =>
    rcases bind_eq_error_iff.mp h with h | ⟨⟨name, value⟩, -, h⟩
    · exact not_isConfiguration_of_pairOf h
    · dsimp only at h
      split at h
      · exact ih h
      · cases h
        exact not_false

theorem not_isConfiguration_of_fieldsOfPairs {items : List Value}
    (h : fieldsOfPairs items = .error error) : ¬error.IsConfiguration := by
  rcases bind_eq_error_iff.mp h with h | ⟨made, -, h⟩
  · exact not_isConfiguration_of_pairsFrom h
  · cases h

/-- A section that cannot be made a record is no error of the configuration. -/
theorem not_isConfiguration_of_fieldsOf (h : fieldsOf value = .error error) :
    ¬error.IsConfiguration := by
  cases value with
  | record => cases h
  | list => exact not_isConfiguration_of_fieldsOfPairs h
  | text => exact not_isConfiguration_of_fieldsOfPairs h
  | _ =>
    cases h
    exact not_false

/-! ### Making all sections records -/

/-- Every section is found again, made a record. -/
theorem get?_normalized_eq_some (h : normalized settings = .ok next)
    (hget : Fields.get? settings name = some value) :
    ∃ fields, fieldsOf value = .ok fields ∧ Fields.get? next name = some (.record fields) := by
  induction settings generalizing next with
  | nil => cases hget
  | cons first rest ih =>
    obtain ⟨first, values⟩ := first
    obtain ⟨fields, hfields, h⟩ := bind_eq_ok_iff.mp h
    obtain ⟨others, hothers, h⟩ := bind_eq_ok_iff.mp h
    obtain rfl := Except.ok.inj h
    rw [Fields.get?] at hget ⊢
    by_cases hname : first = name
    · rw [if_pos hname] at hget ⊢
      obtain rfl := Option.some.inj hget
      exact ⟨fields, hfields, rfl⟩
    · rw [if_neg hname] at hget ⊢
      exact ih hothers hget

theorem names_normalized (h : normalized settings = .ok next) :
    Fields.names next = Fields.names settings := by
  induction settings generalizing next with
  | nil =>
    obtain rfl := Except.ok.inj h
    rfl
  | cons first rest ih =>
    obtain ⟨fields, -, h⟩ := bind_eq_ok_iff.mp h
    obtain ⟨others, hothers, h⟩ := bind_eq_ok_iff.mp h
    obtain rfl := Except.ok.inj h
    exact congrArg (first.1 :: ·) (ih hothers)

theorem isRecord_of_get?_normalized (h : normalized settings = .ok next)
    (hget : Fields.get? next name = some value) : value.IsRecord := by
  cases hbefore : Fields.get? settings name with
  | none =>
    rw [Fields.get?_eq_none_iff, ← names_normalized h, ← Fields.get?_eq_none_iff, hget] at hbefore
    cases hbefore
  | some before =>
    obtain ⟨fields, -, hfields⟩ := get?_normalized_eq_some h hbefore
    exact ⟨fields, Option.some.inj (hget.symm.trans hfields)⟩

theorem normalized_succeeds_iff :
    (∃ next, normalized settings = .ok next) ↔ ∀ given ∈ settings, given.2.ActsAsRecord := by
  induction settings with
  | nil => exact ⟨fun _ ↦ List.forall_mem_nil _, fun _ ↦ ⟨[], rfl⟩⟩
  | cons first rest ih =>
    rw [List.forall_mem_cons, ← ih, ← fieldsOf_succeeds_iff]
    constructor
    · rintro ⟨next, h⟩
      obtain ⟨fields, hfields, h⟩ := bind_eq_ok_iff.mp h
      obtain ⟨others, hothers, -⟩ := bind_eq_ok_iff.mp h
      exact ⟨⟨fields, hfields⟩, others, hothers⟩
    · rintro ⟨⟨fields, hfields⟩, others, hothers⟩
      exact ⟨_, by rw [normalized, hfields, ok_bind, hothers, ok_bind, pure_eq_ok]⟩

/-- Settings whose sections are records stay as they are. -/
theorem normalized_of_isRecord (h : ∀ given ∈ settings, given.2.IsRecord) :
    normalized settings = .ok settings := by
  induction settings with
  | nil => rfl
  | cons first rest ih =>
    obtain ⟨name, values⟩ := first
    obtain ⟨⟨fields, rfl⟩, hrest⟩ := List.forall_mem_cons.mp h
    rw [normalized, fieldsOf, ok_bind, ih hrest, ok_bind, pure_eq_ok]

theorem not_isConfiguration_of_normalized (h : normalized settings = .error error) :
    ¬error.IsConfiguration := by
  induction settings with
  | nil => cases h
  | cons first rest ih =>
    rcases bind_eq_error_iff.mp h with h | ⟨fields, -, h⟩
    · exact not_isConfiguration_of_fieldsOf h
    · rcases bind_eq_error_iff.mp h with h | ⟨others, -, h⟩
      · exact ih h
      · cases h

theorem distinct_of_normalized (h : normalized settings = .ok next)
    (hdistinct : Fields.Distinct settings) : Fields.Distinct next := by
  rwa [Fields.Distinct, names_normalized h]

end Settings

end BridgeBidding
