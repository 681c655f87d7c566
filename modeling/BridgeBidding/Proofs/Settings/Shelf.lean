import BridgeBidding.Proofs.Settings.Layers

/-!
# Laying settings over settings in place

Layers can also be laid over one another in place.  Records then stand on a shelf, where a section
is the place of its record, and a section that is overridden has its record changed where it stands.
Before that every section gets a record of its own (`Placed.store`), but a section that is added
keeps the place that it has in its layer, and so shares the record with it.

What is read off the shelf is what `Settings.override` and `Settings.load` make
(`Placed.reads_override`, `Placed.reads_merge`), and the records that stood on the shelf before are
left as they were: only records that a layer has stored itself are ever changed
(`Placed.Prepared`).
-/

set_option autoImplicit false
set_option relaxedAutoImplicit false

namespace BridgeBidding

open Success

/-- Records, each at its place. -/
abbrev Shelf := List Fields

/-- The record at a place; at a place that is not on the shelf there are no fields. -/
def Shelf.recordAt (shelf : Shelf) (place : Nat) : Fields := shelf[place]?.getD []

/-- Sections, each by the place of its record. -/
abbrev Placed := List (String × Nat)

namespace Placed

/-! ### Reading, storing, and changing in place -/

/-- The sections with the records at their places. -/
def read (shelf : Shelf) (placed : Placed) : Settings :=
  placed.map fun given ↦ (given.1, .record (shelf.recordAt given.2))

/-- All places are on the shelf. -/
def StandsOn (shelf : Shelf) (placed : Placed) : Prop :=
  ∀ given ∈ placed, given.2 < shelf.length

/-- The shelf with a new record for every section. -/
def store (shelf : Shelf) : Settings → Shelf × Placed
  | [] => (shelf, [])
  | (name, values) :: rest =>
    let (last, others) := store (shelf ++ [values.fields]) rest
    (last, (name, shelf.length) :: others)

/-- A section overridden in place, or added at the place that it has. -/
def overrideSection (shelf : Shelf) (placed : Placed) (name : String) (place : Nat) :
    Shelf × Placed :=
  match Fields.get? placed name with
  | none => (shelf, Fields.put placed name place)
  | some own =>
    (shelf.set own (Fields.overlay (shelf.recordAt own) (shelf.recordAt place)), placed)

/-- Sections overridden in place one after another. -/
def overrideSections (shelf : Shelf) (placed : Placed) : Placed → Shelf × Placed
  | [] => (shelf, placed)
  | (name, place) :: rest =>
    let (next, sections) := overrideSection shelf placed name place
    overrideSections next sections rest

/-- A layer laid over settings: every section is copied, and the copies are overridden in place. -/
def override (shelf : Shelf) (placed changes : Placed) : Shelf × Placed :=
  let (copied, own) := store shelf (placed.read shelf)
  overrideSections copied own changes

/-- The defaults stored on the shelf, then the entry laid over them, then what is asked for the
session unless that is nothing. -/
def merge (shelf : Shelf) (entry asked : Placed) : Shelf × Placed :=
  let (stored, own) := store shelf Settings.defaults
  let (first, sections) := override stored own entry
  if asked.isEmpty then (first, sections) else override first sections asked

/-- The settings that are put together in place. -/
def result (shelf : Shelf) (entry asked : Placed) : Settings :=
  let (last, sections) := merge shelf entry asked
  sections.read last

variable {shelf old : Shelf} {placed changes : Placed} {name convention : String} {place : Nat}

/-! ### What is read -/

theorem read_cons (shelf : Shelf) (name : String) (place : Nat) (rest : Placed) :
    read shelf ((name, place) :: rest) =
      (name, .record (shelf.recordAt place)) :: read shelf rest := rfl

@[simp] theorem names_read (shelf : Shelf) (placed : Placed) :
    Fields.names (placed.read shelf) = Fields.names placed := by
  simp [read, Fields.names]

theorem get?_read (shelf : Shelf) (placed : Placed) (name : String) :
    Fields.get? (placed.read shelf) name =
      (Fields.get? placed name).map fun place ↦ .record (shelf.recordAt place) := by
  induction placed with
  | nil => rfl
  | cons first rest ih =>
    rw [read_cons, Fields.get?, Fields.get?, ih]
    split_ifs
    · rfl
    · rfl

theorem read_put (shelf : Shelf) (placed : Placed) (name : String) (place : Nat) :
    read shelf (Fields.put placed name place) =
      Fields.put (placed.read shelf) name (.record (shelf.recordAt place)) := by
  induction placed with
  | nil => rfl
  | cons first rest ih =>
    rw [Fields.put, read_cons, Fields.put]
    by_cases hname : first.1 = name
    · rw [if_pos hname, if_pos hname, read_cons]
    · rw [if_neg hname, if_neg hname, read_cons, ih]

theorem isRecord_of_mem_read {given : String × Value} (h : given ∈ placed.read shelf) :
    given.2.IsRecord := by
  obtain ⟨stored, -, rfl⟩ := List.mem_map.mp h
  exact ⟨_, rfl⟩

theorem StandsOn.of_grown (h : placed.StandsOn old) (hgrown : old <+: shelf) :
    placed.StandsOn shelf :=
  fun given hgiven ↦ Nat.lt_of_lt_of_le (h given hgiven) hgrown.length_le

theorem recordAt_of_grown (hgrown : old <+: shelf) (hplace : place < old.length) :
    shelf.recordAt place = old.recordAt place := by
  obtain ⟨added, rfl⟩ := hgrown
  rw [Shelf.recordAt, Shelf.recordAt, List.getElem?_append_left hplace]

/-- On a shelf that has grown the same is read. -/
theorem read_of_grown (hgrown : old <+: shelf) (hstands : placed.StandsOn old) :
    placed.read shelf = placed.read old :=
  List.map_congr_left fun given hgiven ↦ by
    rw [recordAt_of_grown hgrown (hstands given hgiven)]

/-! ### Storing -/

/-- Records are stored behind those on the shelf, each at a place of its own. -/
theorem store_spec (shelf : Shelf) (settings : Settings) :
    shelf <+: (store shelf settings).1 ∧
      Fields.names (store shelf settings).2 = Fields.names settings ∧
      (store shelf settings).2.StandsOn (store shelf settings).1 ∧
      (∀ given ∈ (store shelf settings).2, shelf.length ≤ given.2) ∧
      ((store shelf settings).2.map Prod.snd).Nodup := by
  induction settings generalizing shelf with
  | nil => simp [store, StandsOn, Fields.names]
  | cons first rest ih =>
    obtain ⟨hgrown, hnames, hstands, hbehind, hnodup⟩ := ih (shelf ++ [first.2.fields])
    have hlength := hgrown.length_le
    rw [List.length_append, List.length_singleton] at hlength hbehind
    refine ⟨(List.prefix_append _ _).trans hgrown, congrArg (first.1 :: ·) hnames, ?_, ?_, ?_⟩
    · exact List.forall_mem_cons.mpr ⟨hlength, hstands⟩
    · exact List.forall_mem_cons.mpr ⟨Nat.le_refl _, fun given hgiven ↦
        Nat.le_of_succ_le (hbehind given hgiven)⟩
    · refine List.nodup_cons.mpr ⟨fun hmem ↦ ?_, hnodup⟩
      obtain ⟨given, hgiven, hplace⟩ := List.mem_map.mp hmem
      exact Nat.lt_irrefl _ (hplace ▸ hbehind given hgiven)

/-- What is stored is read again. -/
theorem read_store (shelf : Shelf) {settings : Settings}
    (h : ∀ given ∈ settings, given.2.IsRecord) :
    (store shelf settings).2.read (store shelf settings).1 = settings := by
  induction settings generalizing shelf with
  | nil => rfl
  | cons first rest ih =>
    obtain ⟨name, values⟩ := first
    obtain ⟨⟨fields, rfl⟩, hrest⟩ := List.forall_mem_cons.mp h
    have hgrown := (store_spec (shelf ++ [fields]) rest).1
    have hrecord : (store (shelf ++ [fields]) rest).1.recordAt shelf.length = fields := by
      rw [recordAt_of_grown hgrown (by simp), Shelf.recordAt, List.getElem?_concat_length]
      rfl
    exact congrArg₂ (fun fields others ↦ (name, Value.record fields) :: others) hrecord
      (ih _ hrest)

/-! ### Overriding in place -/

/-- The sections can be overridden under the names without touching what stood on the old shelf, or
any other section: their records stand behind the old ones, and nothing else stands there. -/
structure Prepared (old shelf : Shelf) (placed : Placed) (names : List String) : Prop where
  grown : old <+: shelf
  distinct : Fields.Distinct placed
  stands : placed.StandsOn shelf
  behind : ∀ name ∈ names, ∀ place, (name, place) ∈ placed → old.length ≤ place
  alone : ∀ name ∈ names, ∀ place, (name, place) ∈ placed →
    ∀ other, (other, place) ∈ placed → other = name

theorem recordAt_set {own : Nat} (hown : own < shelf.length) (fields : Fields) (place : Nat) :
    Shelf.recordAt (shelf.set own fields) place =
      if place = own then fields else shelf.recordAt place := by
  rw [Shelf.recordAt, List.getElem?_set]
  split_ifs with hset hplace hplace
  · rfl
  · exact absurd hset.symm hplace
  · exact absurd hplace.symm hset
  · rfl

/-- A record that no section has can be changed without a section changing. -/
theorem read_set_of_not_mem {own : Nat} (hown : own < shelf.length) (fields : Fields)
    (h : ∀ given ∈ placed, given.2 ≠ own) :
    placed.read (shelf.set own fields) = placed.read shelf :=
  List.map_congr_left fun given hgiven ↦ by rw [recordAt_set hown, if_neg (h given hgiven)]

/-- Changing the record of a section in place changes nothing else, if no other section stands
there. -/
theorem read_set {own : Nat} (fields : Fields) (hdistinct : Fields.Distinct placed)
    (hmem : (name, own) ∈ placed) (hown : own < shelf.length)
    (halone : ∀ other, (other, own) ∈ placed → other = name) :
    placed.read (shelf.set own fields) =
      Fields.put (placed.read shelf) name (.record fields) := by
  induction placed with
  | nil => cases hmem
  | cons first rest ih =>
    obtain ⟨key, place⟩ := first
    obtain ⟨hfirst, hrest⟩ := Fields.distinct_cons_iff.mp hdistinct
    rw [read_cons, read_cons, recordAt_set hown, Fields.put]
    by_cases hkey : key = name
    · -- it is the first section, and the others stand elsewhere
      subst hkey
      have hplace : place = own := by
        rcases List.mem_cons.mp hmem with heq | hmem
        · exact (Prod.mk.inj heq).2.symm
        · exact absurd (List.mem_map_of_mem hmem) hfirst
      have hothers : ∀ given ∈ rest, given.2 ≠ own := by
        intro given hgiven hplace
        have hother : given.1 = key := halone given.1 (List.mem_cons_of_mem _ (hplace ▸ hgiven))
        exact hfirst (List.mem_map.mpr ⟨given, hgiven, hother⟩)
      rw [if_pos rfl, if_pos hplace, read_set_of_not_mem hown fields hothers]
    · have hplace : place ≠ own := fun heq ↦ hkey (halone key (heq ▸ List.mem_cons_self))
      have hrestMem : (name, own) ∈ rest :=
        (List.mem_cons.mp hmem).resolve_left fun heq ↦ hkey (Prod.mk.inj heq).1.symm
      rw [if_neg hkey, if_neg hplace,
        ih hrest hrestMem fun other hother ↦ halone other (List.mem_cons_of_mem _ hother)]

/-- A section is overridden in place as it is otherwise, and the other ones can still be. -/
theorem Prepared.overrideSection {names : List String}
    (h : Prepared old shelf placed (name :: names)) (hname : name ∉ names)
    (hplace : place < old.length) (convention : String) :
    Prepared old (placed.overrideSection shelf name place).1
        (placed.overrideSection shelf name place).2 names ∧
      Settings.overrideSection convention (placed.read shelf) name
          (.record (old.recordAt place)) =
        .ok ((placed.overrideSection shelf name place).2.read
          (placed.overrideSection shelf name place).1) := by
  have hrecord := recordAt_of_grown h.grown hplace
  unfold Placed.overrideSection Settings.overrideSection
  rw [get?_read]
  cases hown : Fields.get? placed name with
  | none =>
    refine ⟨⟨h.grown, h.distinct.put _ _, ?_, ?_, ?_⟩, ?_⟩
    · intro given hgiven
      rcases Fields.mem_put hgiven with rfl | hgiven
      · exact Nat.lt_of_lt_of_le hplace h.grown.length_le
      · exact h.stands given hgiven
    · intro other hother own hmem
      rcases Fields.mem_put hmem with heq | hmem
      · obtain ⟨rfl, -⟩ := Prod.mk.inj heq
        exact absurd hother hname
      · exact h.behind other (List.mem_cons_of_mem _ hother) own hmem
    · intro other hother own hmem third hthird
      rcases Fields.mem_put hmem with heq | hmem
      · obtain ⟨rfl, -⟩ := Prod.mk.inj heq
        exact absurd hother hname
      · have hbehind := h.behind other (List.mem_cons_of_mem _ hother) own hmem
        rcases Fields.mem_put hthird with heq | hthird
        · -- an added section stands among the old records
          obtain ⟨-, rfl⟩ := Prod.mk.inj heq
          exact absurd hplace (Nat.not_lt.mpr hbehind)
        · exact h.alone other (List.mem_cons_of_mem _ hother) own hmem third hthird
    · rw [read_put, hrecord]
      rfl
  | some own =>
    have hmem := Fields.mem_of_get?_eq_some hown
    have hbehind := h.behind name List.mem_cons_self own hmem
    have hlength : (shelf.set own
        (Fields.overlay (shelf.recordAt own) (shelf.recordAt place))).length = shelf.length :=
      List.length_set
    refine ⟨⟨?_, h.distinct, ?_, ?_, ?_⟩, ?_⟩
    · rw [List.prefix_iff_eq_take, List.take_set_of_le hbehind]
      exact List.prefix_iff_eq_take.mp h.grown
    · exact fun given hgiven ↦ hlength ▸ h.stands given hgiven
    · exact fun other hother ↦ h.behind other (List.mem_cons_of_mem _ hother)
    · exact fun other hother ↦ h.alone other (List.mem_cons_of_mem _ hother)
    · rw [read_set _ h.distinct hmem (h.stands _ hmem) (h.alone name List.mem_cons_self own hmem),
        hrecord]
      rfl

/-- Sections are overridden in place as they are otherwise. -/
theorem Prepared.overrideSections (h : Prepared old shelf placed (Fields.names changes))
    (hdistinct : Fields.Distinct changes) (hstands : changes.StandsOn old) (convention : String) :
    Prepared old (placed.overrideSections shelf changes).1
        (placed.overrideSections shelf changes).2 [] ∧
      Settings.overrideSections convention (placed.read shelf) (changes.read old) =
        .ok ((placed.overrideSections shelf changes).2.read
          (placed.overrideSections shelf changes).1) := by
  induction changes generalizing shelf placed with
  | nil => exact ⟨h, rfl⟩
  | cons first rest ih =>
    obtain ⟨hfirst, hrest⟩ := Fields.distinct_cons_iff.mp hdistinct
    obtain ⟨hplace, hothers⟩ := List.forall_mem_cons.mp hstands
    obtain ⟨hnext, hstep⟩ := h.overrideSection hfirst hplace convention
    obtain ⟨hlast, hrun⟩ := ih hnext hrest hothers
    refine ⟨hlast, bind_eq_ok_iff.mpr ⟨_, hstep, hrun⟩⟩

/-- Sections that have just been stored can be overridden under any names. -/
theorem prepared_store (shelf : Shelf) {settings : Settings} (h : Fields.Distinct settings)
    (names : List String) :
    Prepared shelf (store shelf settings).1 (store shelf settings).2 names := by
  obtain ⟨hgrown, hnames, hstands, hbehind, hnodup⟩ := store_spec shelf settings
  refine ⟨hgrown, ?_, hstands, fun name _ place hmem ↦ hbehind _ hmem, ?_⟩
  · rwa [Fields.Distinct, hnames]
  · intro name _ place hmem other hother
    exact congrArg Prod.fst (List.inj_on_of_nodup_map hnodup hother hmem rfl)

/-! ### Layers -/

/-- Settings of which the places are on the shelf, and each name stands there once. -/
structure Kept (shelf : Shelf) (placed : Placed) : Prop where
  distinct : Fields.Distinct placed
  stands : placed.StandsOn shelf

theorem kept_nil (shelf : Shelf) : Kept shelf [] :=
  ⟨Fields.distinct_nil, List.forall_mem_nil _⟩

theorem Kept.of_grown (h : Kept old placed) (hgrown : old <+: shelf) : Kept shelf placed :=
  ⟨h.distinct, h.stands.of_grown hgrown⟩

/-- A layer that is laid over settings in place makes what it makes otherwise, and leaves what stood
on the shelf. -/
theorem reads_override (hplaced : Kept shelf placed) (hchanges : Kept shelf changes)
    (convention : String) :
    shelf <+: (override shelf placed changes).1 ∧
      Kept (override shelf placed changes).1 (override shelf placed changes).2 ∧
      Settings.override convention (placed.read shelf) (.record (changes.read shelf)) =
        .ok ((override shelf placed changes).2.read (override shelf placed changes).1) := by
  have hdistinct : Fields.Distinct (placed.read shelf) := by
    rw [Fields.Distinct, names_read]
    exact hplaced.distinct
  have hrecords : ∀ given ∈ placed.read shelf, given.2.IsRecord :=
    fun given ↦ isRecord_of_mem_read
  obtain ⟨hlast, hrun⟩ := (prepared_store shelf hdistinct (Fields.names changes)).overrideSections
    hchanges.distinct hchanges.stands convention
  refine ⟨hlast.grown, ⟨hlast.distinct, hlast.stands⟩, ?_⟩
  rw [Settings.override, Settings.normalized_of_isRecord hrecords, ok_bind]
  rw [read_store shelf hrecords] at hrun
  exact hrun

/-- Settings that are put together in place are those that are put together otherwise, and what
stood on the shelf is left. -/
theorem reads_merge {document : Option SettingsDocument} {entry asked : Placed}
    (hentry : Kept shelf entry) (hasked : Kept shelf asked)
    (hload : Settings.entryOf convention document = .ok (entry.read shelf)) :
    shelf <+: (merge shelf entry asked).1 ∧
      Settings.load document convention (.record (asked.read shelf)) =
        .ok (result shelf entry asked) := by
  have hstored := prepared_store shelf Settings.distinct_defaults []
  obtain ⟨hgrown, hfirst, hoverride⟩ := reads_override ⟨hstored.distinct, hstored.stands⟩
    (hentry.of_grown hstored.grown) convention
  rw [read_store shelf fun _ ↦ Settings.isRecord_of_mem_defaults,
    read_of_grown hstored.grown hentry.stands] at hoverride
  have hgrown := hstored.grown.trans hgrown
  rw [Settings.load, hload, ok_bind, hoverride, ok_bind]
  unfold result merge
  dsimp only
  cases asked with
  | nil => exact ⟨hgrown, rfl⟩
  | cons first rest =>
    obtain ⟨hlast, -, hsession⟩ := reads_override hfirst (hasked.of_grown hgrown) convention
    rw [read_of_grown hgrown hasked.stands] at hsession
    exact ⟨hgrown.trans hlast, hsession⟩

end Placed

end BridgeBidding
