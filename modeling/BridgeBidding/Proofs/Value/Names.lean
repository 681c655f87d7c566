import BridgeBidding.Proofs.Success
import BridgeBidding.Value.Json
import Mathlib.Data.List.Nodup
import Mathlib.Tactic.SplitIfs

/-!
# Records that have each name once

What is found under a name of a record is the field of that name, if the record has each name only
once (`Fields.Distinct`), and putting values into a record keeps it so.  What is laid over a record
is found before what was there (`Fields.get?_overlay`).

In a proper value all records have each name once (`Value.Proper`), and every value that is read
from a text is proper (`Json.proper_of_read`).
-/

set_option autoImplicit false
set_option relaxedAutoImplicit false

namespace BridgeBidding

namespace Fields

variable {α : Type} {fields changes : List (String × α)} {name other : String} {value : α}

/-- The names in order. -/
def names (fields : List (String × α)) : List String := fields.map Prod.fst

/-- Each name stands there once. -/
def Distinct (fields : List (String × α)) : Prop := (names fields).Nodup

theorem distinct_nil : Distinct ([] : List (String × α)) := List.nodup_nil

theorem distinct_cons_iff {field : String × α} :
    Distinct (field :: fields) ↔ field.1 ∉ names fields ∧ Distinct fields := List.nodup_cons

theorem get?_eq_none_iff : get? fields name = none ↔ name ∉ names fields := by
  induction fields with
  | nil => simp [names]
  | cons field rest ih =>
    obtain ⟨key, old⟩ := field
    rw [get?, names, List.map_cons, List.mem_cons, not_or, ← names, ← ih]
    by_cases hkey : key = name
    · simp [hkey]
    · simp [hkey, eq_comm (a := name)]

theorem mem_of_get?_eq_some (h : get? fields name = some value) : (name, value) ∈ fields := by
  induction fields with
  | nil => cases h
  | cons field rest ih =>
    obtain ⟨key, old⟩ := field
    rw [get?] at h
    split at h
    case isTrue hkey =>
      obtain rfl := Option.some.inj h
      exact hkey ▸ List.mem_cons_self
    case isFalse => exact List.mem_cons_of_mem _ (ih h)

/-- What stands under a name that stands there once is found. -/
theorem Distinct.get?_eq_some_iff (h : Distinct fields) :
    get? fields name = some value ↔ (name, value) ∈ fields := by
  refine ⟨mem_of_get?_eq_some, fun hmem ↦ ?_⟩
  induction fields with
  | nil => cases hmem
  | cons field rest ih =>
    obtain ⟨hfirst, hrest⟩ := distinct_cons_iff.mp h
    rcases List.mem_cons.mp hmem with rfl | hmem
    · rw [get?, if_pos rfl]
    · have hother : field.1 ≠ name := by
        rintro rfl
        exact hfirst (List.mem_map.mpr ⟨_, hmem, rfl⟩)
      rw [get?, if_neg hother, ih hrest hmem]

theorem mem_names_put_iff :
    other ∈ names (put fields name value) ↔ other = name ∨ other ∈ names fields := by
  rw [← not_iff_not, not_or, ← get?_eq_none_iff, ← get?_eq_none_iff, get?_put]
  split <;> simp_all

theorem mem_put {field : String × α} (h : field ∈ put fields name value) :
    field = (name, value) ∨ field ∈ fields := by
  induction fields with
  | nil => exact .inl (List.mem_singleton.mp h)
  | cons first rest ih =>
    rw [Fields.put] at h
    split_ifs at h with hname
    · rcases List.mem_cons.mp h with rfl | h
      · exact .inl (by rw [hname])
      · exact .inr (List.mem_cons_of_mem _ h)
    · rcases List.mem_cons.mp h with rfl | h
      · exact .inr List.mem_cons_self
      · exact (ih h).imp_right (List.mem_cons_of_mem _)

theorem Distinct.put (h : Distinct fields) (name : String) (value : α) :
    Distinct (put fields name value) := by
  induction fields with
  | nil => exact distinct_cons_iff.mpr ⟨List.not_mem_nil, h⟩
  | cons field rest ih =>
    obtain ⟨key, old⟩ := field
    obtain ⟨hfirst, hrest⟩ := distinct_cons_iff.mp h
    rw [Fields.put]
    split
    case isTrue => exact distinct_cons_iff.mpr ⟨hfirst, hrest⟩
    case isFalse hother =>
      refine distinct_cons_iff.mpr ⟨fun hmem ↦ ?_, ih hrest⟩
      rcases mem_names_put_iff.mp hmem with hkey | hmem
      · exact hother hkey
      · exact hfirst hmem

/-- What is found in overlaid fields is found in the changes, or else in the fields before. -/
theorem get?_overlay (h : Distinct changes) (name : String) :
    get? (overlay fields changes) name = (get? changes name).or (get? fields name) := by
  induction changes generalizing fields with
  | nil => rfl
  | cons change rest ih =>
    obtain ⟨hfirst, hrest⟩ := distinct_cons_iff.mp h
    have hstep : overlay fields (change :: rest) =
        overlay (Fields.put fields change.1 change.2) rest := rfl
    rw [hstep, ih hrest, get?_put, get?]
    by_cases hname : name = change.1
    · subst hname
      rw [if_pos rfl, if_pos rfl, get?_eq_none_iff.mpr hfirst]
      rfl
    · rw [if_neg hname, if_neg (Ne.symm hname)]

end Fields

namespace Value

mutual

/-- Every record in the value has each of its names once. -/
def Proper : Value → Prop
  | list items => ProperItems items
  | record fields => Fields.Distinct fields ∧ ProperFields fields
  | _ => True

/-- The items of a list are proper. -/
def ProperItems : List Value → Prop
  | [] => True
  | item :: rest => Proper item ∧ ProperItems rest

/-- The values of fields are proper. -/
def ProperFields : List (String × Value) → Prop
  | [] => True
  | (_, value) :: rest => Proper value ∧ ProperFields rest

end

theorem ProperFields.put {fields : Fields} (h : ProperFields fields) (name : String) {value : Value}
    (hvalue : value.Proper) : ProperFields (Fields.put fields name value) := by
  induction fields with
  | nil => exact ⟨hvalue, trivial⟩
  | cons field rest ih =>
    obtain ⟨key, old⟩ := field
    rw [Fields.put]
    split
    · exact ⟨hvalue, h.2⟩
    · exact ⟨h.1, ih h.2⟩

theorem ProperFields.of_get? {fields : Fields} (h : ProperFields fields) {name : String}
    {value : Value} (hget : Fields.get? fields name = some value) : value.Proper := by
  induction fields with
  | nil => cases hget
  | cons field rest ih =>
    obtain ⟨key, old⟩ := field
    rw [Fields.get?] at hget
    split at hget
    · obtain rfl := Option.some.inj hget
      exact h.1
    · exact ih h.2 hget

theorem Proper.put {fields : Fields} (h : (record fields).Proper) (name : String) {value : Value}
    (hvalue : value.Proper) : (record (Fields.put fields name value)).Proper :=
  ⟨h.1.put name value, h.2.put name hvalue⟩

end Value

/-! ### Reading -/

namespace Json

open Value

theorem proper_of_numberOf? {numeral : List Char} {value : Value}
    (h : numberOf? numeral = some value) : value.Proper := by
  unfold numberOf? at h
  simp only [Option.ite_none_left_eq_some] at h
  obtain ⟨-, h⟩ := h
  split_ifs at h <;> obtain rfl := Option.some.inj h <;> trivial

/-- What is read with so much fuel is proper; fields are read after others that are. -/
structure ReadsProper (fuel : Nat) : Prop where
  value : ∀ {characters value rest},
    readValue fuel characters = some (value, rest) → value.Proper
  items : ∀ {characters items rest},
    readItems fuel characters = some (items, rest) → ProperItems items
  fields : ∀ {fields characters result rest}, (record fields).Proper →
    readFields fuel fields characters = some (result, rest) → (record result).Proper

variable {fuel : Nat} {characters rest : List Char}

theorem ReadsProper.value_succ (h : ReadsProper fuel) {value : Value}
    (hread : readValue (fuel + 1) characters = some (value, rest)) : value.Proper := by
  rw [readValue] at hread
  split at hread
  case h_1 =>
    obtain ⟨_, -, hread⟩ := Option.bind_eq_some_iff.mp hread
    cases hread
    trivial
  case h_2 =>
    split at hread
    · cases hread
      trivial
    · obtain ⟨_, hitems, hread⟩ := Option.bind_eq_some_iff.mp hread
      cases hread
      exact h.items hitems
  case h_3 =>
    have hnone : (record []).Proper := ⟨Fields.distinct_nil, trivial⟩
    split at hread
    · cases hread
      exact hnone
    · obtain ⟨_, hfields, hread⟩ := Option.bind_eq_some_iff.mp hread
      cases hread
      exact h.fields hnone hfields
  case h_10 =>
    obtain ⟨_, hnumber, hread⟩ := Option.bind_eq_some_iff.mp hread
    cases hread
    exact proper_of_numberOf? hnumber
  all_goals
    cases hread
    trivial

theorem ReadsProper.items_succ (h : ReadsProper fuel) {items : List Value}
    (hread : readItems (fuel + 1) characters = some (items, rest)) : ProperItems items := by
  rw [readItems] at hread
  obtain ⟨⟨item, after⟩, hitem, hread⟩ := Option.bind_eq_some_iff.mp hread
  dsimp only at hread
  split at hread
  · obtain ⟨_, hitems, hread⟩ := Option.bind_eq_some_iff.mp hread
    cases hread
    exact ⟨h.value hitem, h.items hitems⟩
  · cases hread
    exact ⟨h.value hitem, trivial⟩
  · cases hread

theorem ReadsProper.fields_succ (h : ReadsProper fuel) {fields result : Fields}
    (hfields : (record fields).Proper)
    (hread : readFields (fuel + 1) fields characters = some (result, rest)) :
    (record result).Proper := by
  rw [readFields] at hread
  split at hread
  case h_2 => cases hread
  obtain ⟨⟨name, _⟩, -, hread⟩ := Option.bind_eq_some_iff.mp hread
  dsimp only at hread
  split at hread
  case h_2 => cases hread
  obtain ⟨⟨value, _⟩, hvalue, hread⟩ := Option.bind_eq_some_iff.mp hread
  dsimp only at hread
  have hput := hfields.put name (h.value hvalue)
  split at hread
  · exact h.fields hput hread
  · cases hread
    exact hput
  · cases hread

theorem readsProper (fuel : Nat) : ReadsProper fuel := by
  induction fuel with
  | zero => exact ⟨nofun, nofun, nofun⟩
  | succ fuel ih => exact ⟨ih.value_succ, ih.items_succ, ih.fields_succ⟩

/-- No record in a value that is read from a text has a name twice. -/
theorem proper_of_read {text : String} {value : Value} (h : read text = some value) :
    value.Proper := by
  obtain ⟨_, hread, h⟩ := Option.bind_eq_some_iff.mp h
  obtain rfl := Option.some.inj h
  exact (readsProper _).value hread

end Json

end BridgeBidding
