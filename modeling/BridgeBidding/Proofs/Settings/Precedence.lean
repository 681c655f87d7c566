import BridgeBidding.Proofs.Settings.Shelf
import BridgeBidding.Proofs.Settings.Valid

/-!
# Which layer a setting comes from

When all sections of the document and of the session are records, settings can always be put
together.  They have the sections of the defaults, of the document and of the session and no others,
and every setting comes from the last of the three layers that gives it
(`Settings.load_by_precedence`).

That is so although layers are laid over one another in place: what is asked for one session neither
changes the document nor the defaults, and without it the settings are afterwards what they were
before.
-/

set_option autoImplicit false
set_option relaxedAutoImplicit false

namespace BridgeBidding

open Success

namespace Settings

variable {settings next : Settings} {convention : String} {changes entry : Fields}
  {document : Option SettingsDocument}

/-- Each section is a record, and has a name of its own. -/
structure Sectioned (settings : Settings) : Prop where
  records : ∀ given ∈ settings, given.2.IsRecord
  distinct : Fields.Distinct settings

theorem sectioned_defaults : defaults.Sectioned where
  records := fun _ ↦ isRecord_of_mem_defaults
  distinct := distinct_defaults

/-- The sections of the later settings are those of the earlier ones and of the changes, and every
setting comes from the changes, or else from the earlier settings. -/
structure IsOverridden (settings : Settings) (changes : Fields) (next : Settings) : Prop where
  sectioned : next.Sectioned
  names_iff : ∀ name, name ∈ Fields.names next ↔
    name ∈ Fields.names settings ∨ name ∈ Fields.names changes
  value?_eq : ∀ name setting, value? next name setting =
    (value? changes name setting).or (value? settings name setting)

theorem Sectioned.isRecord {name : String} {value : Value} (h : settings.Sectioned)
    (hget : Fields.get? settings name = some value) : value.IsRecord :=
  h.records _ (Fields.mem_of_get?_eq_some hget)

/-- A section is found after a layer if it was there before or is among the changes. -/
theorem IsLayered.names_iff (h : IsLayered settings changes next) (name : String) :
    name ∈ Fields.names next ↔ name ∈ Fields.names settings ∨ name ∈ Fields.names changes := by
  rw [← not_iff_not, not_or, ← Fields.get?_eq_none_iff, ← Fields.get?_eq_none_iff,
    ← Fields.get?_eq_none_iff, h name]
  cases Fields.get? changes name with
  | none => simp
  | some given => simp [layered]

theorem IsLayered.isRecord {name : String} {value : Value} (h : IsLayered settings changes next)
    (hsettings : settings.Sectioned) (hchanges : Sectioned changes)
    (hget : Fields.get? next name = some value) : value.IsRecord := by
  rw [h name] at hget
  cases hgiven : Fields.get? changes name with
  | none =>
    rw [hgiven] at hget
    exact hsettings.isRecord hget
  | some given =>
    rw [hgiven] at hget
    obtain rfl := Option.some.inj hget
    exact isRecord_overridden (hchanges.isRecord hgiven)

/-- After a layer of records a setting is that of the changes, or else that from before. -/
theorem IsLayered.value?_eq (h : IsLayered settings changes next) (hsettings : settings.Sectioned)
    (hchanges : Sectioned changes) (hproper : (Value.record changes).Proper)
    (name setting : String) :
    value? next name setting =
      (value? changes name setting).or (value? settings name setting) := by
  unfold value?
  rw [h name]
  cases hgiven : Fields.get? changes name with
  | none => rfl
  | some given =>
    obtain ⟨added, rfl⟩ := hchanges.isRecord hgiven
    cases hbefore : Fields.get? settings name with
    | none => exact (Option.or_none).symm
    | some before =>
      obtain ⟨fields, rfl⟩ := hsettings.isRecord hbefore
      exact Fields.get?_overlay (hproper.2.of_get? hgiven).1 setting

/-- A layer of records can be laid over settings of records. -/
theorem exists_override (convention : String) (hsettings : settings.Sectioned)
    (hchanges : Sectioned changes) (hproper : (Value.record changes).Proper) :
    ∃ next, override convention settings (.record changes) = .ok next ∧
      settings.IsOverridden changes next := by
  have hnormalized := normalized_of_isRecord hsettings.records
  have hfits : Fits settings changes := fun name given hgiven _ ↦ hchanges.isRecord hgiven
  obtain ⟨next, hnext, hlayered, hdistinct⟩ := exists_overrideSections convention
    hchanges.distinct (recordsAt_of_normalized hnormalized _) hfits
  have hnextDistinct := hdistinct hsettings.distinct
  refine ⟨next, by rw [override, hnormalized]; exact hnext, ⟨fun given hgiven ↦ ?_,
    hnextDistinct⟩, hlayered.names_iff, hlayered.value?_eq hsettings hchanges hproper⟩
  exact hlayered.isRecord hsettings hchanges (hnextDistinct.get?_eq_some_iff.mpr hgiven)

/-- A session that asks for nothing is as good as a layer without any sections. -/
theorem load_record {first : Settings} (hentry : entryOf convention document = .ok entry)
    (hfirst : override convention defaults (.record entry) = .ok first)
    (hsectioned : first.Sectioned) (changes : Fields) :
    load document convention (.record changes) = override convention first (.record changes) := by
  rw [load, hentry, ok_bind, hfirst, ok_bind]
  cases changes with
  | nil =>
    rw [override, normalized_of_isRecord hsectioned.records]
    rfl
  | cons change rest => rfl

theorem load_fields {overrides : Value} (h : overrides = .null ∨ overrides.IsRecord) :
    load document convention overrides = load document convention (.record overrides.fields) := by
  rcases h with rfl | ⟨changes, rfl⟩
  · exact load_null
  · rfl

/-- When the document and the session have records for sections, settings can be put together from
the defaults, the document and the session: they have the sections of all three, and each setting is
that of the last of them that gives it.  Put together in place they are the same, and whatever stood
on the shelf is left, so that without the session the settings are afterwards what they were before.
-/
theorem load_by_precedence (document : Option SettingsDocument) (convention : String)
    (overrides : Value) (hdocument : ∀ given ∈ document, given.content.Proper)
    (hoverrides : overrides.Proper) (hasked : overrides = .null ∨ overrides.IsRecord)
    (hentry : entryOf convention document = .ok entry)
    (hsections : ∀ given ∈ entry, given.2.IsRecord)
    (hchanges : ∀ given ∈ overrides.fields, given.2.IsRecord) :
    ∃ settings plain, load document convention overrides = .ok settings ∧
      load document convention .null = .ok plain ∧ settings.Sectioned ∧
      (∀ name, name ∈ Fields.names settings ↔ name ∈ Fields.names defaults ∨
        name ∈ Fields.names entry ∨ name ∈ Fields.names overrides.fields) ∧
      (∀ name setting, value? settings name setting =
        (value? overrides.fields name setting).or
          ((value? entry name setting).or (value? defaults name setting))) ∧
      ∀ shelf given asked, Placed.Kept shelf given → Placed.Kept shelf asked →
        given.read shelf = entry → asked.read shelf = overrides.fields →
          shelf <+: (Placed.merge shelf given asked).1 ∧
          Placed.result shelf given asked = settings ∧ Placed.result shelf given [] = plain ∧
          Placed.result (Placed.merge shelf given asked).1 given [] = plain := by
  have hproper := proper_of_entryOf hdocument hentry
  have hfields : (Value.record overrides.fields).Proper := by
    rcases hasked with rfl | ⟨changes, rfl⟩
    · exact ⟨Fields.distinct_nil, trivial⟩
    · exact hoverrides
  obtain ⟨first, hfirst, hlayer⟩ :=
    exists_override convention sectioned_defaults ⟨hsections, hproper.1⟩ hproper
  obtain ⟨settings, hsettings, hsession⟩ :=
    exists_override convention hlayer.sectioned ⟨hchanges, hfields.1⟩ hfields
  have hload : load document convention (.record overrides.fields) = .ok settings :=
    (load_record hentry hfirst hlayer.sectioned _).trans hsettings
  have hplain : load document convention (.record []) = .ok first := by
    rw [load, hentry, ok_bind, hfirst, ok_bind]
    rfl
  refine ⟨settings, first, (load_fields hasked).trans hload, hplain, hsession.sectioned,
    fun name ↦ ?_, fun name setting ↦ ?_, ?_⟩
  · rw [hsession.names_iff, hlayer.names_iff, or_assoc]
  · rw [hsession.value?_eq, hlayer.value?_eq]
  · intro shelf given asked hgiven haskedKept hread haskedRead
    -- the session leaves the shelf, so that the entry is read off it again
    obtain ⟨hgrown, hresult⟩ := Placed.reads_merge hgiven haskedKept (hread ▸ hentry)
    have hafter : entryOf convention document =
        .ok (given.read (Placed.merge shelf given asked).1) := by
      rw [Placed.read_of_grown hgrown hgiven.stands, hread, hentry]
    have hbefore := (Placed.reads_merge hgiven (Placed.kept_nil _) (hread ▸ hentry)).2
    have hagain := (Placed.reads_merge (hgiven.of_grown hgrown) (Placed.kept_nil _) hafter).2
    rw [haskedRead] at hresult
    exact ⟨hgrown, Except.ok.inj (hresult.symm.trans hload),
      Except.ok.inj (hbefore.symm.trans hplain), Except.ok.inj (hagain.symm.trans hplain)⟩

/-- A document that limits the attempts and adds a section of notes, which is a record. -/
def withLimits : SettingsDocument where
  file := "conventions.yaml"
  content := .record [("conventions", .record [("stayman", .record
    [("deal", .record [("max_attempts", .int 500)]),
      ("notes", .record [("author", .text "club")])])])]

/-- The seed is that of the session, the attempts and the notes are those of the document, and the
seat is that of the defaults. -/
theorem load_by_precedence_withLimits :
    let shelf : Shelf :=
      [[("max_attempts", .int 500)], [("author", .text "club")], [("seed", .int 7)]]
    let given : Placed := [("deal", 0), ("notes", 1)]
    let asked : Placed := [("deal", 2)]
    ∃ settings, load (some withLimits) "stayman" seedSeven = .ok settings ∧
      value? settings "deal" "seed" = some (.int 7) ∧
      value? settings "deal" "max_attempts" = some (.int 500) ∧
      value? settings "notes" "author" = some (.text "club") ∧
      value? settings "trainer" "trainee_seat" = some (.text "S") ∧
      shelf <+: (Placed.merge shelf given asked).1 ∧
      Placed.result shelf given asked = settings := by
  intro shelf given asked
  have hsingle (name : String) (value : Value) : Fields.Distinct [(name, value)] :=
    List.nodup_singleton name
  have hpair : Fields.Distinct given := by
    unfold Fields.Distinct
    decide
  have hentry : (Value.record (given.read shelf)).Proper :=
    ⟨hpair, ⟨hsingle _ _, trivial, trivial⟩, ⟨hsingle _ _, trivial, trivial⟩, trivial⟩
  have hdocument : ∀ found ∈ some withLimits, found.content.Proper := by
    rintro found ⟨⟩
    exact ⟨hsingle _ _, ⟨hsingle _ _, hentry, trivial⟩, trivial⟩
  have hseed : seedSeven.Proper := ⟨hsingle _ _, ⟨hsingle _ _, trivial, trivial⟩, trivial⟩
  have hgiven : Placed.Kept shelf given := ⟨hpair, by simp [Placed.StandsOn, given, shelf]⟩
  have hasked : Placed.Kept shelf asked :=
    ⟨List.nodup_singleton _, by simp [Placed.StandsOn, asked, shelf]⟩
  have hrecords (placed : Placed) : ∀ found ∈ placed.read shelf, found.2.IsRecord :=
    fun found ↦ Placed.isRecord_of_mem_read
  obtain ⟨settings, plain, hload, -, -, -, hvalue, hplaced⟩ := load_by_precedence (some withLimits)
    "stayman" seedSeven hdocument hseed (.inr ⟨_, rfl⟩) rfl (hrecords given) (hrecords asked)
  obtain ⟨hgrown, hresult, -⟩ := hplaced shelf given asked hgiven hasked rfl rfl
  exact ⟨settings, hload, hvalue _ _, hvalue _ _, hvalue _ _, hvalue _ _, hgrown, hresult⟩

end Settings

end BridgeBidding
