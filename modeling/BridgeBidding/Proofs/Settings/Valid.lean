import BridgeBidding.Proofs.Settings.Sections
import BridgeBidding.Trainer
import Mathlib.Tactic.SplitIfs

/-!
# What valid settings state

Overrides change values and add some, but they never remove one: a value that a setting has before
a layer is laid over it is there afterwards, perhaps another one (`Settings.Keeps`,
`Settings.keeps_override`).  So the settings that are put together have a value wherever the
defaults have one (`Settings.keeps_load`).

There is a default for every setting that something is demanded of.  Settings in which no offence is
found therefore do not merely leave such a setting out: they state a value for it, and it meets the
demand (`Settings.isValid_of_loadValid`).  The plan of a drill reads such settings without falling
back on anything (`DrillPlan.states_ofSettings`).
-/

set_option autoImplicit false
set_option relaxedAutoImplicit false

namespace BridgeBidding

open Success

namespace Fields

/-- A value may be replaced, but it is not lost. -/
theorem isSome_get?_put {α : Type} {fields : List (String × α)} {other : String}
    (name : String) (value : α) (h : (get? fields other).isSome) :
    (get? (put fields name value) other).isSome := by
  rw [get?_put]
  split_ifs
  · rfl
  · exact h

theorem isSome_get?_overlay {α : Type} {fields : List (String × α)} {name : String}
    (changes : List (String × α)) (h : (get? fields name).isSome) :
    (get? (overlay fields changes) name).isSome := by
  induction changes generalizing fields with
  | nil => exact h
  | cons change rest ih => exact ih (isSome_get?_put change.1 change.2 h)

end Fields

namespace Settings

variable {settings next last : Settings} {convention name setting : String} {value : Value}

/-! ### Layers keep settings -/

/-- The value of a setting in a section that is a record. -/
def value? (settings : Settings) (name setting : String) : Option Value :=
  match Fields.get? settings name with
  | some (.record values) => Fields.get? values setting
  | _ => none

theorem value?_eq_some_iff :
    value? settings name setting = some value ↔
      ∃ values, Fields.get? settings name = some (.record values) ∧
        Fields.get? values setting = some value := by
  unfold value?
  constructor
  · intro h
    split at h
    · exact ⟨_, by assumption, h⟩
    · cases h
  · rintro ⟨values, hvalues, hvalue⟩
    rw [hvalues]
    exact hvalue

theorem isSome_value?_iff :
    (value? settings name setting).isSome ↔
      ∃ values, Fields.get? settings name = some (.record values) ∧
        (Fields.get? values setting).isSome := by
  simp only [Option.isSome_iff_exists, value?_eq_some_iff]
  exact ⟨fun ⟨value, values, hvalues, hvalue⟩ ↦ ⟨values, hvalues, value, hvalue⟩,
    fun ⟨values, hvalues, value, hvalue⟩ ↦ ⟨value, values, hvalues, hvalue⟩⟩

/-- The later settings have a value wherever the earlier ones have one. -/
def Keeps (settings next : Settings) : Prop :=
  ∀ name setting, (value? settings name setting).isSome → (value? next name setting).isSome

theorem Keeps.trans (hfirst : settings.Keeps next) (hsecond : next.Keeps last) :
    settings.Keeps last :=
  fun name setting h ↦ hsecond name setting (hfirst name setting h)

/-- A section that is a record stays the record that it is. -/
theorem get?_normalized {fields : Fields} (h : normalized settings = .ok next)
    (hget : Fields.get? settings name = some (.record fields)) :
    Fields.get? next name = some (.record fields) := by
  obtain ⟨made, hmade, hnext⟩ := get?_normalized_eq_some h hget
  obtain rfl := Except.ok.inj hmade
  exact hnext

theorem keeps_normalized (h : normalized settings = .ok next) : settings.Keeps next := by
  intro name setting hvalue
  obtain ⟨values, hvalues, hvalue⟩ := isSome_value?_iff.mp hvalue
  exact isSome_value?_iff.mpr ⟨values, get?_normalized h hvalues, hvalue⟩

/-- A section that is there is overridden value by value, and one that is not takes the place of
none. -/
theorem keeps_overrideSection {changed : String} {values : Value}
    (h : overrideSection convention settings changed values = .ok next) :
    settings.Keeps next := by
  intro name setting hvalue
  obtain ⟨before, hbefore, hvalue⟩ := isSome_value?_iff.mp hvalue
  rw [isSome_value?_iff]
  unfold overrideSection at h
  cases hold : Fields.get? settings changed with
  | none =>
    rw [hold] at h
    obtain rfl := Except.ok.inj h
    have hother : name ≠ changed := by
      rintro rfl
      rw [hold] at hbefore
      cases hbefore
    exact ⟨before, by rw [Fields.get?_put, if_neg hother, hbefore], hvalue⟩
  | some old =>
    rw [hold] at h
    cases values with
    | record changes =>
      obtain ⟨fields, hfields, hnext⟩ := bind_eq_ok_iff.mp h
      obtain rfl := Except.ok.inj hnext
      rw [Fields.get?_put]
      by_cases hname : name = changed
      · subst hname
        obtain rfl : old = .record before := Option.some.inj (hold.symm.trans hbefore)
        obtain rfl := Except.ok.inj hfields
        rw [if_pos rfl]
        exact ⟨_, rfl, Fields.isSome_get?_overlay changes hvalue⟩
      · rw [if_neg hname]
        exact ⟨before, hbefore, hvalue⟩
    | _ => cases h

theorem keeps_overrideSections {changes : Fields}
    (h : overrideSections convention settings changes = .ok next) : settings.Keeps next := by
  induction changes generalizing settings with
  | nil =>
    obtain rfl := Except.ok.inj h
    exact fun name setting hvalue ↦ hvalue
  | cons change rest ih =>
    obtain ⟨name, values⟩ := change
    obtain ⟨between, hfirst, hrest⟩ := bind_eq_ok_iff.mp h
    exact (keeps_overrideSection hfirst).trans (ih hrest)

/-- A layer that is laid over settings removes none. -/
theorem keeps_override {overrides : Value}
    (h : override convention settings overrides = .ok next) : settings.Keeps next := by
  obtain ⟨sections, hsections, h⟩ := bind_eq_ok_iff.mp h
  cases overrides with
  | record changes => exact (keeps_normalized hsections).trans (keeps_overrideSections h)
  | _ => cases h

/-- Whatever the document says and is asked for, no default is lost. -/
theorem keeps_load {document : Option SettingsDocument} {overrides : Value}
    (h : load document convention overrides = .ok settings) : defaults.Keeps settings := by
  obtain ⟨entry, -, h⟩ := bind_eq_ok_iff.mp h
  obtain ⟨first, hfirst, h⟩ := bind_eq_ok_iff.mp h
  split_ifs at h
  · obtain rfl := Except.ok.inj h
    exact keeps_override hfirst
  · exact (keeps_override hfirst).trans (keeps_override h)

/-! ### No offence -/

/-- Every setting that something is demanded of has a value, and the value meets the demand. -/
def IsValid (settings : Settings) : Prop :=
  ∀ wanted ∈ demands, ∀ demand ∈ wanted.2,
    ∃ value, value? settings wanted.1 demand.1 = some value ∧ demand.2.admits value = true

/-- Every setting that something is demanded of has a default. -/
theorem isSome_defaults : ∀ wanted ∈ demands, ∀ demand ∈ wanted.2,
    (value? defaults wanted.1 demand.1).isSome := by
  decide

theorem admits_of_offencesIn_eq_nil {values : Fields} {wanted : List (String × Demand)}
    {demand : Demand} (h : offencesIn (.record values) wanted = .ok [])
    (hdemand : (setting, demand) ∈ wanted) (hvalue : Fields.get? values setting = some value) :
    demand.admits value = true := by
  induction wanted with
  | nil => cases hdemand
  | cons first rest ih =>
    obtain ⟨other, otherDemand⟩ := first
    obtain ⟨found, hfound, h⟩ := bind_eq_ok_iff.mp h
    obtain ⟨others, hothers, h⟩ := bind_eq_ok_iff.mp h
    obtain ⟨hnone, rfl⟩ := List.append_eq_nil_iff.mp (Except.ok.inj h)
    rcases List.mem_cons.mp hdemand with hfirst | hrest
    · cases hfirst
      obtain rfl : Fields.get? values setting = found := Except.ok.inj hfound
      simpa [hvalue] using hnone
    · exact ih hothers hrest

theorem offencesIn_eq_nil_of_offencesAmong {wanted : List (String × List (String × Demand))}
    {within : List (String × Demand)} {values : Value}
    (h : offencesAmong (.record settings) wanted = .ok []) (hwithin : (name, within) ∈ wanted)
    (hvalues : Fields.get? settings name = some values) : offencesIn values within = .ok [] := by
  induction wanted with
  | nil => cases hwithin
  | cons first rest ih =>
    obtain ⟨other, otherWithin⟩ := first
    obtain ⟨found, hfound, h⟩ := bind_eq_ok_iff.mp h
    obtain rfl : Fields.get? settings other = found := Except.ok.inj hfound
    -- the offences of the first section are none, and so are those of the rest
    have hparts : (∀ given, Fields.get? settings other = some given →
        offencesIn given otherWithin = .ok []) ∧
        offencesAmong (.record settings) rest = .ok [] := by
      cases hgiven : Fields.get? settings other with
      | none =>
        rw [hgiven] at h
        obtain ⟨first, -, h⟩ := bind_eq_ok_iff.mp h
        obtain ⟨others, hothers, h⟩ := bind_eq_ok_iff.mp h
        obtain ⟨-, rfl⟩ := List.append_eq_nil_iff.mp (Except.ok.inj h)
        exact ⟨nofun, hothers⟩
      | some given =>
        rw [hgiven] at h
        obtain ⟨first, hfirst, h⟩ := bind_eq_ok_iff.mp h
        obtain ⟨others, hothers, h⟩ := bind_eq_ok_iff.mp h
        obtain ⟨rfl, rfl⟩ := List.append_eq_nil_iff.mp (Except.ok.inj h)
        exact ⟨fun _ hsame ↦ Option.some.inj hsame ▸ hfirst, hothers⟩
    rcases List.mem_cons.mp hwithin with hfirst | hrest
    · cases hfirst
      exact hparts.1 values hvalues
    · exact ih hparts.2 hrest

/-- Settings that are accepted are valid. -/
theorem isValid_of_loadValid {document : Option SettingsDocument} {overrides : Value}
    (h : loadValid document convention overrides = .ok settings) : settings.IsValid := by
  obtain ⟨loaded, hloaded, h⟩ := bind_eq_ok_iff.mp h
  obtain ⟨found, hfound, h⟩ := bind_eq_ok_iff.mp h
  split_ifs at h with hempty
  obtain rfl := Except.ok.inj h
  obtain rfl := List.isEmpty_iff.mp hempty
  rintro ⟨name, within⟩ hwanted ⟨setting, demand⟩ hdemand
  have hkept := keeps_load (mapError_eq_ok_iff.mp hloaded) name setting
    (isSome_defaults _ hwanted _ hdemand)
  obtain ⟨value, hvalue⟩ := Option.isSome_iff_exists.mp hkept
  obtain ⟨values, hvalues, hget⟩ := value?_eq_some_iff.mp hvalue
  exact ⟨value, hvalue,
    admits_of_offencesIn_eq_nil (offencesIn_eq_nil_of_offencesAmong hfound hwanted hvalues)
      hdemand hget⟩

end Settings

/-! ### The plan of a drill -/

theorem Seat.ofLetter?_letter (seat : Seat) : Seat.ofLetter? seat.letter = some seat := by
  cases seat <;> rfl

theorem Vulnerability.ofText?_text (vulnerability : Vulnerability) :
    Vulnerability.ofText? vulnerability.text = some vulnerability := by
  cases vulnerability <;> rfl

namespace Demand

theorem exists_of_admits_oneOf {choices : List String} {value : Value}
    (h : (oneOf choices).admits value = true) : ∃ content ∈ choices, value = .text content := by
  cases value with
  | text content => exact ⟨content, List.contains_iff_mem.mp h, rfl⟩
  | _ => cases h

theorem exists_of_admits_positive {value : Value} (h : positive.admits value = true) :
    ∃ number : Int, 0 < number ∧ value = .int number := by
  cases value with
  | int number => exact ⟨number, of_decide_eq_true h, rfl⟩
  | _ => cases h

theorem exists_of_admits_wholeOrNull {value : Value} (h : wholeOrNull.admits value = true) :
    value = .null ∨ ∃ number, value = .int number := by
  cases value with
  | int number => exact .inr ⟨number, rfl⟩
  | null => exact .inl rfl
  | _ => cases h

end Demand

namespace DrillPlan

/-- The settings state the plan: a seat and a vulnerability by their texts, a positive number of
attempts, and a seed, which is null for none. -/
structure States (settings : Settings) (plan : DrillPlan) : Prop where
  seat : settings.value? "trainer" "trainee_seat" = some (.text plan.seat.letter)
  vulnerability : settings.value? "trainer" "vulnerability" = some (.text plan.vulnerability.text)
  attempts : ∃ number : Int, 0 < number ∧ plan.attempts = some number ∧
    settings.value? "deal" "max_attempts" = some (.int number)
  seed : settings.value? "deal" "seed" = some (plan.seed.elim .null .int)

theorem setting_eq (settings : Settings) (name key : String) :
    setting settings name key = (settings.value? name key).getD .null := by
  unfold setting Settings.value?
  cases Fields.get? settings name with
  | none => rfl
  | some values => cases values <;> rfl

/-- The plan that is read off valid settings is the one that they state. -/
theorem states_ofSettings {settings : Settings} (h : settings.IsValid) :
    States settings (ofSettings settings) where
  seat := by
    obtain ⟨value, hvalue, hadmits⟩ := h ("trainer", _) (.head _) ("trainee_seat", _) (.head _)
    obtain ⟨content, hcontent, rfl⟩ := Demand.exists_of_admits_oneOf hadmits
    obtain ⟨seat, -, rfl⟩ := List.mem_map.mp hcontent
    have hseat : (ofSettings settings).seat = seat := by
      rw [ofSettings, setting_eq, hvalue, Option.getD_some, text?, Option.bind_some,
        Seat.ofLetter?_letter, Option.getD_some]
    rw [hvalue, hseat]
  vulnerability := by
    obtain ⟨value, hvalue, hadmits⟩ :=
      h ("trainer", _) (.head _) ("vulnerability", _) (.tail _ (.head _))
    obtain ⟨content, hcontent, rfl⟩ := Demand.exists_of_admits_oneOf hadmits
    obtain ⟨vulnerability, -, rfl⟩ := List.mem_map.mp hcontent
    have hvulnerability : (ofSettings settings).vulnerability = vulnerability := by
      rw [ofSettings]
      simp only
      rw [setting_eq settings "trainer" "vulnerability", hvalue, Option.getD_some, text?,
        Option.bind_some, Vulnerability.ofText?_text, Option.getD_some]
    rw [hvalue, hvulnerability]
  attempts := by
    obtain ⟨value, hvalue, hadmits⟩ :=
      h ("deal", _) (.tail _ (.head _)) ("max_attempts", _) (.head _)
    obtain ⟨number, hpositive, rfl⟩ := Demand.exists_of_admits_positive hadmits
    refine ⟨number, hpositive, ?_, hvalue⟩
    rw [ofSettings]
    simp only
    rw [setting_eq settings "deal" "max_attempts", hvalue, Option.getD_some, int?]
  seed := by
    obtain ⟨value, hvalue, hadmits⟩ :=
      h ("deal", _) (.tail _ (.head _)) ("seed", _) (.tail _ (.head _))
    have hseed : (ofSettings settings).seed = int? value := by
      rw [ofSettings]
      simp only
      rw [setting_eq settings "deal" "seed", hvalue, Option.getD_some]
    rw [hvalue, hseed]
    rcases Demand.exists_of_admits_wholeOrNull hadmits with rfl | ⟨number, rfl⟩
    · rfl
    · rfl

end DrillPlan

end BridgeBidding
