import BridgeBidding.Proofs.Settings.Sections

/-!
# Laying settings over settings

A layer overrides the sections that are there and adds those that are not.  `Settings.layered` says
what it makes of one section, and `Settings.exists_overrideSections` that a whole layer does this to
every section.  A layer fails just if what it has for a section that is there is no record
(`Settings.Fits`), and that is an error of the configuration.

Before a layer is laid over settings, their sections are made records.  The sections of the defaults
are records already, but one that the document adds may be any value: most of those that are no
record cannot be made one, which is no error of the configuration, and the others are not kept as
they were given.  Whether this happens depends on whether anything is asked for the session
(`Settings.load_outcome`).
-/

set_option autoImplicit false
set_option relaxedAutoImplicit false

namespace BridgeBidding

open Success

namespace Settings

variable {settings next : Settings} {convention name : String} {value : Value} {changes : Fields}
  {error : SettingsError}

/-! ### One section -/

/-- The section that a layer makes of `given`: the one before overridden value by value, or else
`given` as it is. -/
def overridden : Option Value → Value → Value
  | some (.record fields), .record changes => .record (Fields.overlay fields changes)
  | _, given => given

/-- The section that is found after a layer. -/
def layered (before : Option Value) : Option Value → Option Value
  | none => before
  | some given => some (overridden before given)

@[simp] theorem layered_none_left (given : Option Value) : layered none given = given := by
  cases given <;> rfl

@[simp] theorem layered_none_right (before : Option Value) : layered before none = before := rfl

theorem isRecord_overridden {before : Option Value} {given : Value} (h : given.IsRecord) :
    (overridden before given).IsRecord := by
  obtain ⟨changes, rfl⟩ := h
  unfold overridden
  split
  · exact ⟨_, rfl⟩
  · exact ⟨_, rfl⟩

/-- Every section of the later settings is what a layer of changes makes of the earlier one. -/
def IsLayered (settings : Settings) (changes : Fields) (next : Settings) : Prop :=
  ∀ name, Fields.get? next name = layered (Fields.get? settings name) (Fields.get? changes name)

/-- What the changes have for a section that is there is a record. -/
def Fits (settings : Settings) (changes : Fields) : Prop :=
  ∀ name given, Fields.get? changes name = some given →
    (Fields.get? settings name).isSome → given.IsRecord

/-- Those of the sections that are there are records. -/
def RecordsAt (settings : Settings) (names : List String) : Prop :=
  ∀ name ∈ names, ∀ before, Fields.get? settings name = some before → before.IsRecord

theorem RecordsAt.of_cons {first : String} {names : List String}
    (h : settings.RecordsAt (first :: names)) : settings.RecordsAt names :=
  fun name hname ↦ h name (List.mem_cons_of_mem _ hname)

theorem RecordsAt.put {first : String} {names : List String} (h : settings.RecordsAt names)
    (hfirst : first ∉ names) (value : Value) :
    RecordsAt (Fields.put settings first value) names := by
  intro name hname before hbefore
  have hne : name ≠ first := fun heq ↦ hfirst (heq ▸ hname)
  rw [Fields.get?_put, if_neg hne] at hbefore
  exact h name hname before hbefore

theorem overrideSection_eq_ok (convention : String)
    (hrecord : ∀ before, Fields.get? settings name = some before → before.IsRecord)
    (hfits : (Fields.get? settings name).isSome → value.IsRecord) :
    overrideSection convention settings name value =
      .ok (Fields.put settings name (overridden (Fields.get? settings name) value)) := by
  cases hbefore : Fields.get? settings name with
  | none => rw [overrideSection, hbefore]; rfl
  | some before =>
    obtain ⟨fields, rfl⟩ := hrecord before hbefore
    obtain ⟨changes, rfl⟩ := hfits (by rw [hbefore]; rfl)
    rw [overrideSection, hbefore]
    rfl

theorem overrideSection_eq_error (hthere : (Fields.get? settings name).isSome)
    (hvalue : ¬value.IsRecord) :
    overrideSection convention settings name value =
      .error (.sectionNotRecord convention name value) := by
  obtain ⟨before, hbefore⟩ := Option.isSome_iff_exists.mp hthere
  rw [overrideSection, hbefore]
  cases value with
  | record fields => exact absurd ⟨fields, rfl⟩ hvalue
  | _ => rfl

/-- Changing one section leaves what is said about the others. -/
theorem fits_put_iff {first : String} (hfirst : first ∉ Fields.names changes) :
    Fits (Fields.put settings first value) changes ↔ Fits settings changes := by
  have hother {name : String} {given : Value} (h : Fields.get? changes name = some given) :
      Fields.get? (Fields.put settings first value) name = Fields.get? settings name := by
    have hne : name ≠ first := by
      rintro rfl
      rw [Fields.get?_eq_none_iff.mpr hfirst] at h
      cases h
    rw [Fields.get?_put, if_neg hne]
  exact forall₃_congr fun name given h ↦ by rw [hother h]

theorem fits_cons_iff {first : String × Value} (hfirst : first.1 ∉ Fields.names changes) :
    Fits settings (first :: changes) ↔
      ((Fields.get? settings first.1).isSome → first.2.IsRecord) ∧ Fits settings changes := by
  constructor
  · refine fun h ↦ ⟨h first.1 first.2 (by rw [Fields.get?, if_pos rfl]), fun name given hgiven ↦ ?_⟩
    refine h name given ?_
    rw [Fields.get?, if_neg, hgiven]
    rintro rfl
    rw [Fields.get?_eq_none_iff.mpr hfirst] at hgiven
    cases hgiven
  · rintro ⟨hvalue, hrest⟩ name given hgiven
    rw [Fields.get?] at hgiven
    split at hgiven
    case isTrue hname =>
      obtain rfl := Option.some.inj hgiven
      exact hname ▸ hvalue
    case isFalse => exact hrest name given hgiven

/-- A layer that fits does to every section what it does to a single one. -/
theorem exists_overrideSections (convention : String) (hdistinct : Fields.Distinct changes)
    (hrecords : settings.RecordsAt (Fields.names changes)) (hfits : Fits settings changes) :
    ∃ next, overrideSections convention settings changes = .ok next ∧
      IsLayered settings changes next ∧ (Fields.Distinct settings → Fields.Distinct next) := by
  induction changes generalizing settings with
  | nil => exact ⟨settings, rfl, fun _ ↦ rfl, id⟩
  | cons first rest ih =>
    obtain ⟨first, given⟩ := first
    obtain ⟨hfirst, hrest⟩ := Fields.distinct_cons_iff.mp hdistinct
    obtain ⟨hgiven, hfits⟩ := (fits_cons_iff hfirst).mp hfits
    have hstep := overrideSection_eq_ok convention (hrecords first List.mem_cons_self) hgiven
    obtain ⟨next, hnext, hget, hkept⟩ :=
      ih hrest (hrecords.of_cons.put hfirst _) ((fits_put_iff hfirst).mpr hfits)
    refine ⟨next, by rw [overrideSections, hstep, ok_bind, hnext], fun name ↦ ?_,
      fun h ↦ hkept (h.put _ _)⟩
    rw [hget name, Fields.get?_put, Fields.get?]
    by_cases hname : name = first
    · subst hname
      rw [if_pos rfl, if_pos rfl, Fields.get?_eq_none_iff.mpr hfirst]
      rfl
    · rw [if_neg hname, if_neg (Ne.symm hname)]

/-- A layer that does not fit is an error of the configuration. -/
theorem exists_overrideSections_eq_error (convention : String)
    (hdistinct : Fields.Distinct changes)
    (hrecords : settings.RecordsAt (Fields.names changes)) (hfits : ¬Fits settings changes) :
    ∃ name given, overrideSections convention settings changes =
      .error (.sectionNotRecord convention name given) := by
  induction changes generalizing settings with
  | nil => exact absurd (fun _ _ h ↦ nomatch h) hfits
  | cons first rest ih =>
    obtain ⟨first, given⟩ := first
    obtain ⟨hfirst, hrest⟩ := Fields.distinct_cons_iff.mp hdistinct
    by_cases hgiven : (Fields.get? settings first).isSome → given.IsRecord
    · have hstep := overrideSection_eq_ok convention (hrecords first List.mem_cons_self) hgiven
      have hfits : ¬Fits settings rest :=
        fun h ↦ hfits ((fits_cons_iff hfirst).mpr ⟨hgiven, h⟩)
      obtain ⟨name, other, h⟩ :=
        ih hrest (hrecords.of_cons.put hfirst _) (mt (fits_put_iff hfirst).mp hfits)
      exact ⟨name, other, by rw [overrideSections, hstep, ok_bind, h]⟩
    · obtain ⟨hthere, hgiven⟩ := Classical.not_imp.mp hgiven
      exact ⟨first, given, by
        rw [overrideSections, overrideSection_eq_error hthere hgiven, error_bind]⟩

/-! ### A layer over settings of any kind -/

theorem recordsAt_of_normalized (h : normalized settings = .ok next) (names : List String) :
    next.RecordsAt names :=
  fun _ _ _ hbefore ↦ isRecord_of_get?_normalized h hbefore

/-- A layer that can be laid over settings fits them once their sections are records, and every
section is then what the layer makes of it. -/
theorem of_override_eq_ok (hdistinct : Fields.Distinct changes)
    (h : override convention settings (.record changes) = .ok next) :
    ∃ sections, normalized settings = .ok sections ∧ Fits sections changes ∧
      IsLayered sections changes next ∧ (Fields.Distinct settings → Fields.Distinct next) := by
  obtain ⟨sections, hsections, h⟩ := bind_eq_ok_iff.mp h
  have hrecords := recordsAt_of_normalized hsections (Fields.names changes)
  have hfits : Fits sections changes := by
    by_contra hfits
    obtain ⟨name, given, herror⟩ :=
      exists_overrideSections_eq_error convention hdistinct hrecords hfits
    cases herror.symm.trans h
  obtain ⟨found, hfound, hget, hkept⟩ :=
    exists_overrideSections convention hdistinct hrecords hfits
  obtain rfl := Except.ok.inj (hfound.symm.trans h)
  exact ⟨sections, hsections, hfits, hget,
    fun hsettings ↦ hkept (distinct_of_normalized hsections hsettings)⟩

/-- Laying a layer over settings fails with an error that is none of the configuration just if a
section before it cannot be made a record. -/
theorem override_fails_otherwise_iff (convention : String) (hdistinct : Fields.Distinct changes) :
    (∃ error, override convention settings (.record changes) = .error error ∧
        ¬error.IsConfiguration) ↔
      ∃ given ∈ settings, ¬given.2.ActsAsRecord := by
  constructor
  · rintro ⟨error, h, herror⟩
    by_contra! hsettings
    obtain ⟨sections, hsections⟩ := normalized_succeeds_iff.mpr hsettings
    have hrecords := recordsAt_of_normalized hsections (Fields.names changes)
    rw [override, hsections, ok_bind] at h
    by_cases hfits : Fits sections changes
    · obtain ⟨next, hnext, -⟩ := exists_overrideSections convention hdistinct hrecords hfits
      cases hnext.symm.trans h
    · obtain ⟨name, given, hunfit⟩ :=
        exists_overrideSections_eq_error convention hdistinct hrecords hfits
      obtain rfl := Except.error.inj (hunfit.symm.trans h)
      exact herror trivial
  · rintro ⟨given, hgiven, hacts⟩
    cases hsections : normalized settings with
    | ok sections =>
      exact absurd (normalized_succeeds_iff.mp ⟨sections, hsections⟩ given hgiven) hacts
    | error error =>
      exact ⟨error, by rw [override, hsections, error_bind],
        not_isConfiguration_of_normalized hsections⟩

/-! ### The defaults, the document and the session -/

variable {document : Option SettingsDocument} {overrides : Value} {entry first : Fields}

theorem normalized_defaults : normalized defaults = .ok defaults := rfl

theorem distinct_defaults : Fields.Distinct defaults := by
  unfold Fields.Distinct
  decide

theorem isRecord_of_get?_defaults (h : Fields.get? defaults name = some value) : value.IsRecord :=
  isRecord_of_get?_normalized normalized_defaults h

theorem isRecord_of_mem_defaults {given : String × Value} (h : given ∈ defaults) :
    given.2.IsRecord :=
  isRecord_of_get?_defaults (distinct_defaults.get?_eq_some_iff.mpr h)

/-- The entry has a section that the defaults do not have. -/
def Adds (entry : Fields) (name : String) (value : Value) : Prop :=
  Fields.get? entry name = some value ∧ Fields.get? defaults name = none

theorem isConfiguration_of_entryOf (h : entryOf convention document = .error error) :
    error.IsConfiguration := by
  cases document with
  | none => cases h
  | some document =>
    rw [entryOf, entryFor] at h
    split at h
    case h_2 =>
      cases h
      trivial
    case h_1 =>
      split at h
      case h_2 =>
        cases h
        trivial
      case h_1 =>
        split at h
        case h_1 | h_2 => cases h
        case h_3 =>
          cases h
          trivial

/-- What a proper document says about a convention is proper. -/
theorem proper_of_entryOf (hdocument : ∀ given ∈ document, given.content.Proper)
    (h : entryOf convention document = .ok entry) : (Value.record entry).Proper := by
  cases document with
  | none =>
    obtain rfl := Except.ok.inj h
    exact ⟨Fields.distinct_nil, trivial⟩
  | some document =>
    have hcontent := hdocument document rfl
    rw [entryOf, entryFor] at h
    split at h
    case h_2 => cases h
    case h_1 fields hfields =>
      rw [hfields] at hcontent
      split at h
      case h_2 => cases h
      case h_1 entries hentries =>
        split at h
        case h_1 =>
          obtain rfl := Except.ok.inj h
          exact ⟨Fields.distinct_nil, trivial⟩
        case h_2 made hmade =>
          obtain rfl := Except.ok.inj h
          exact (hcontent.2.of_get? hentries).2.of_get? (Option.filter_eq_some_iff.mp hmade).1
        case h_3 => cases h

theorem distinct_of_entryOf (hdocument : ∀ given ∈ document, given.content.Proper)
    (h : entryOf convention document = .ok entry) : Fields.Distinct entry :=
  (proper_of_entryOf hdocument h).1

/-- The settings of the first layer have a record wherever the entry adds nothing. -/
theorem isRecord_or_adds (hfits : Fits defaults entry) (hget : IsLayered defaults entry first)
    (h : Fields.get? first name = some value) : value.IsRecord ∨ Adds entry name value := by
  rw [hget name] at h
  cases hdefault : Fields.get? defaults name with
  | none =>
    rw [hdefault, layered_none_left] at h
    exact .inr ⟨h, hdefault⟩
  | some before =>
    left
    rw [hdefault] at h
    cases hgiven : Fields.get? entry name with
    | none =>
      rw [hgiven] at h
      obtain rfl := Option.some.inj h
      exact isRecord_of_get?_defaults hdefault
    | some given =>
      rw [hgiven] at h
      obtain rfl := Option.some.inj h
      exact isRecord_overridden (hfits name given hgiven (by rw [hdefault]; rfl))

theorem Adds.get?_eq_some (h : Adds entry name value) (hget : IsLayered defaults entry first) :
    Fields.get? first name = some value := by
  rw [hget name, h.2, layered_none_left, h.1]

theorem exists_not_actsAsRecord_iff (hfits : Fits defaults entry)
    (hget : IsLayered defaults entry first) (hdistinct : Fields.Distinct first) :
    (∃ given ∈ first, ¬given.2.ActsAsRecord) ↔
      ∃ name value, Adds entry name value ∧ ¬value.ActsAsRecord := by
  constructor
  · rintro ⟨⟨name, value⟩, hmem, hacts⟩
    rcases isRecord_or_adds hfits hget (hdistinct.get?_eq_some_iff.mpr hmem) with
      hrecord | hadds
    · exact absurd hrecord.actsAsRecord hacts
    · exact ⟨name, value, hadds, hacts⟩
  · rintro ⟨name, value, hadds, hacts⟩
    exact ⟨(name, value), Fields.mem_of_get?_eq_some (hadds.get?_eq_some hget), hacts⟩

/-- An entry that the defaults allow can be laid over them. -/
theorem exists_override_defaults (convention : String) (hentry : Fields.Distinct entry)
    (hfits : Fits defaults entry) :
    ∃ first, override convention defaults (.record entry) = .ok first := by
  have hrecords := recordsAt_of_normalized normalized_defaults (Fields.names entry)
  obtain ⟨first, hfirst, -⟩ := exists_overrideSections convention hentry hrecords hfits
  exact ⟨first, hfirst⟩

/-- The settings of the first layer: the entry fits the defaults, and every section is what the
entry makes of the default. -/
theorem of_override_defaults (hentry : Fields.Distinct entry)
    (h : override convention defaults (.record entry) = .ok first) :
    Fits defaults entry ∧ IsLayered defaults entry first ∧ Fields.Distinct first := by
  obtain ⟨sections, hsections, hfits, hget, hdistinct⟩ := of_override_eq_ok hentry h
  obtain rfl := Except.ok.inj (normalized_defaults.symm.trans hsections)
  exact ⟨hfits, hget, hdistinct distinct_defaults⟩

theorem load_fails_otherwise_iff (hdocument : ∀ given ∈ document, given.content.Proper)
    (hchanges : Fields.Distinct changes) :
    (∃ error, load document convention (.record changes) = .error error ∧
        ¬error.IsConfiguration) ↔
      (Value.record changes).isVoid = false ∧ ∃ entry, entryOf convention document = .ok entry ∧
        Fits defaults entry ∧ ∃ name value, Adds entry name value ∧ ¬value.ActsAsRecord := by
  constructor
  · rintro ⟨error, h, herror⟩
    rcases bind_eq_error_iff.mp h with h | ⟨entry, hentry, h⟩
    · exact absurd (isConfiguration_of_entryOf h) herror
    have hdistinct := distinct_of_entryOf hdocument hentry
    rcases bind_eq_error_iff.mp h with h | ⟨first, hfirst, h⟩
    · obtain ⟨given, hgiven, hacts⟩ :=
        (override_fails_otherwise_iff convention hdistinct).mp ⟨error, h, herror⟩
      exact absurd (isRecord_of_mem_defaults hgiven).actsAsRecord hacts
    obtain ⟨hfits, hget, hkept⟩ := of_override_defaults hdistinct hfirst
    split at h
    · cases h
    case isFalse hvoid =>
      have hsection := (override_fails_otherwise_iff convention hchanges).mp ⟨error, h, herror⟩
      exact ⟨Bool.eq_false_iff.mpr hvoid, entry, hentry, hfits,
        (exists_not_actsAsRecord_iff hfits hget hkept).mp hsection⟩
  · rintro ⟨hvoid, entry, hentry, hfits, hadds⟩
    have hdistinct := distinct_of_entryOf hdocument hentry
    obtain ⟨first, hfirst⟩ := exists_override_defaults convention hdistinct hfits
    obtain ⟨-, hget, hkept⟩ := of_override_defaults hdistinct hfirst
    obtain ⟨error, h, herror⟩ := (override_fails_otherwise_iff convention hchanges).mpr
      ((exists_not_actsAsRecord_iff hfits hget hkept).mpr hadds)
    refine ⟨error, ?_, herror⟩
    rw [load, hentry, ok_bind, hfirst, ok_bind, hvoid]
    exact h

theorem load_keeps_iff (hdocument : ∀ given ∈ document, given.content.Proper)
    (hchanges : Fields.Distinct changes)
    (h : load document convention (.record changes) = .ok settings)
    (hentry : entryOf convention document = .ok entry) (hadds : Adds entry name value)
    (hname : Fields.get? changes name = none) :
    Fields.get? settings name = some value ↔
      (Value.record changes).isVoid = true ∨ value.IsRecord := by
  obtain ⟨found, hfound, h⟩ := bind_eq_ok_iff.mp h
  obtain rfl := Except.ok.inj (hentry.symm.trans hfound)
  obtain ⟨first, hfirst, h⟩ := bind_eq_ok_iff.mp h
  obtain ⟨-, hget, -⟩ := of_override_defaults (distinct_of_entryOf hdocument hentry) hfirst
  have hvalue := hadds.get?_eq_some hget
  split at h
  case isTrue hvoid =>
    obtain rfl := Except.ok.inj h
    exact iff_of_true hvalue (.inl hvoid)
  case isFalse hvoid =>
    obtain ⟨sections, hsections, -, hlast, -⟩ := of_override_eq_ok hchanges h
    -- the section is made a record, and the session leaves it at that
    obtain ⟨fields, hfields, hsection⟩ := get?_normalized_eq_some hsections hvalue
    rw [hlast name, hname, layered_none_right, hsection, Option.some.injEq, or_iff_right hvoid]
    constructor
    · rintro rfl
      exact ⟨fields, rfl⟩
    · rintro ⟨same, rfl⟩
      exact congrArg Value.record (Except.ok.inj hfields).symm

/-- Overrides without any section are as good as none. -/
theorem load_null : load document convention .null = load document convention (.record []) := rfl

/-- Putting settings together fails with an error that is none of the configuration just if the
session asks for something and the entry of the document, which the defaults allow, adds a section
that cannot be made a record.  A section that the entry adds and the session does not mention is
kept as it was given just if the session asks for nothing or the section is a record. -/
theorem load_outcome (document : Option SettingsDocument) (convention : String) (overrides : Value)
    (hdocument : ∀ given ∈ document, given.content.Proper) (hoverrides : overrides.Proper)
    (hasked : overrides = .null ∨ overrides.IsRecord) :
    ((∃ error, load document convention overrides = .error error ∧ ¬error.IsConfiguration) ↔
      overrides.isVoid = false ∧ ∃ entry, entryOf convention document = .ok entry ∧
        Fits defaults entry ∧ ∃ name value, Adds entry name value ∧ ¬value.ActsAsRecord) ∧
    ∀ settings entry name value, load document convention overrides = .ok settings →
      entryOf convention document = .ok entry → Adds entry name value →
      overrides.field? name = none →
        (Fields.get? settings name = some value ↔ overrides.isVoid = true ∨ value.IsRecord) := by
  have hnull : Fields.Distinct ([] : Fields) := Fields.distinct_nil
  rcases hasked with rfl | ⟨changes, rfl⟩
  · rw [load_null]
    exact ⟨load_fails_otherwise_iff hdocument hnull,
      fun settings entry name value h hentry hadds _ ↦
        load_keeps_iff hdocument hnull h hentry hadds rfl⟩
  · exact ⟨load_fails_otherwise_iff hdocument hoverrides.1,
      fun settings entry name value h hentry hadds hname ↦
        load_keeps_iff hdocument hoverrides.1 h hentry hadds hname⟩

/-- A document that adds a section of notes, which is a number. -/
def withNotes : SettingsDocument where
  file := "conventions.yaml"
  content := .record [("conventions", .record [("stayman", .record [("notes", .int 5)])])]

/-- Overrides for a session that name the seed of the deal. -/
def seedSeven : Value := .record [("deal", .record [("seed", .int 7)])]

theorem load_outcome_withNotes :
    (∃ error, load (some withNotes) "stayman" seedSeven = .error error ∧ ¬error.IsConfiguration) ∧
      ∃ settings, load (some withNotes) "stayman" .null = .ok settings ∧
        Fields.get? settings "notes" = some (.int 5) := by
  have hsingle (name : String) (value : Value) : Fields.Distinct [(name, value)] :=
    List.nodup_singleton name
  have hdocument : ∀ given ∈ some withNotes, given.content.Proper := by
    rintro given ⟨⟩
    exact ⟨hsingle _ _, ⟨hsingle _ _, ⟨hsingle _ _, trivial, trivial⟩, trivial⟩, trivial⟩
  have hseed : seedSeven.Proper := ⟨hsingle _ _, ⟨hsingle _ _, trivial, trivial⟩, trivial⟩
  have hfits : Fits defaults [("notes", .int 5)] := by
    intro name given h hthere
    rw [Fields.get?] at h
    split at h
    case isTrue hname =>
      subst hname
      cases hthere
    case isFalse => cases h
  have hadds : Adds [("notes", .int 5)] "notes" (.int 5) := ⟨rfl, rfl⟩
  have hacts : ¬(Value.int 5).ActsAsRecord := by rintro ⟨⟩
  exact ⟨(load_outcome (some withNotes) "stayman" seedSeven hdocument hseed (.inr ⟨_, rfl⟩)).1.mpr
      ⟨rfl, _, rfl, hfits, "notes", _, hadds, hacts⟩,
    _, rfl, ((load_outcome (some withNotes) "stayman" .null hdocument trivial (.inl rfl)).2 _ _ _ _
      rfl rfl hadds rfl).mpr (.inl rfl)⟩

/-- The notes are kept if nothing is asked for the session, and asking for a seed fails because of
them. -/
theorem load_withNotes_seedSeven :
    load (some withNotes) "stayman" seedSeven = .error (.notFields (.int 5)) ∧
      ¬(SettingsError.notFields (.int 5)).IsConfiguration ∧
      ∃ settings, load (some withNotes) "stayman" .null = .ok settings ∧
        Fields.get? settings "notes" = some (.int 5) :=
  ⟨rfl, not_false, _, rfl, rfl⟩

end Settings

end BridgeBidding
