import BridgeBidding.Call.Reading
import BridgeBidding.Proofs.Text.Normal
import Mathlib.Tactic.SplitIfs

/-!
# Which texts are calls

A text is read as it stands without the blanks around it and in capitals (`Text.normal`).  It is a
call exactly if it then is one of the spellings of a call (`Call.spellings`), which are the letters
and words for a pass, a double and a redouble, and for a bid the digit of its level with the letters
of its strain (`Call.read_eq_ok_iff`).

The text that a call is shown with is one of its spellings, and nothing in it is a blank or a small
letter.  So it reads as the call again (`Call.read_text`), and no two calls are shown alike.

A bid that is given as two values is shown with its level as it was given.  The text reads as the
bid again if the level was given as a number; it is no call if the level was given as true, which
counts as one (`Bid.given_text_reads`).
-/

set_option autoImplicit false
set_option relaxedAutoImplicit false

namespace BridgeBidding

/-! ### Spellings -/

/-- The letters, in capitals, that a strain is written with. -/
def Strain.spellings : Strain → List String
  | clubs => ["C"]
  | diamonds => ["D"]
  | hearts => ["H"]
  | spades => ["S"]
  | notrump => ["N", "NT"]

theorem Strain.text_mem_spellings (strain : Strain) : strain.text ∈ strain.spellings := by
  cases strain <;> decide

/-- The digit that stands for a level. -/
def Level.digit : Level → Char
  | one => '1'
  | two => '2'
  | three => '3'
  | four => '4'
  | five => '5'
  | six => '6'
  | seven => '7'

theorem Level.toList_toString_number (level : Level) :
    (toString level.number).toList = [level.digit] := by
  cases level <;> rfl

namespace Call

/-- The letters and words, in capitals, that a call is written with. -/
def spellings : Call → List String
  | pass => ["P", "PASS"]
  | bid made => made.strain.spellings.map fun letters ↦ toString made.level.number ++ letters
  | double => ["X", "DOUBLE"]
  | redouble => ["XX", "REDOUBLE"]

theorem text_mem_spellings (call : Call) : call.text ∈ call.spellings := by
  cases call with
  | bid made => exact List.mem_map.mpr ⟨_, made.strain.text_mem_spellings, rfl⟩
  | pass | double | redouble => exact List.mem_cons_self

variable {characters : List Char} {call : Call} {level : Level} {strain : Strain}

theorem levelOf?_eq_some_iff {digit : Char} :
    levelOf? digit = some level ↔ digit = level.digit := by
  constructor
  · intro h
    unfold levelOf? at h
    split at h <;> cases h <;> rfl
  · rintro rfl
    cases level <;> rfl

theorem strainOf?_eq_some_iff :
    strainOf? characters = some strain ↔ String.ofList characters ∈ strain.spellings := by
  constructor
  · intro h
    unfold strainOf? at h
    split at h <;> cases h <;> decide
  · intro h
    have hread : ∀ letters ∈ strain.spellings, strainOf? letters.toList = some strain := by
      cases strain <;> decide
    simpa using hread _ h

/-- Capitals are read as a bid if they are the digit of its level and letters of its strain. -/
theorem bidOf?_eq_some_iff {made : Bid} :
    bidOf? characters = some made ↔
      ∃ letters, characters = made.level.digit :: letters ∧
        strainOf? letters = some made.strain := by
  cases characters with
  | nil => simp [bidOf?]
  | cons digit rest =>
    simp only [bidOf?, Option.bind_eq_bind, Option.bind_eq_some_iff, levelOf?_eq_some_iff,
      List.cons.injEq]
    constructor
    · rintro ⟨level, rfl, strain, hstrain, hmade⟩
      cases hmade
      exact ⟨rest, ⟨rfl, rfl⟩, hstrain⟩
    · rintro ⟨letters, ⟨rfl, rfl⟩, hstrain⟩
      exact ⟨made.level, rfl, made.strain, hstrain, rfl⟩

theorem mem_spellings_bid_iff {made : Bid} :
    String.ofList characters ∈ (bid made).spellings ↔
      ∃ letters, characters = made.level.digit :: letters ∧
        strainOf? letters = some made.strain := by
  rw [spellings, List.mem_map]
  constructor
  · rintro ⟨letters, hletters, htext⟩
    rw [← String.toList_inj, String.toList_append, Level.toList_toString_number,
      String.toList_ofList] at htext
    rw [← String.ofList_toList (s := letters)] at hletters
    exact ⟨letters.toList, htext.symm, strainOf?_eq_some_iff.mpr hletters⟩
  · rintro ⟨letters, rfl, hstrain⟩
    refine ⟨String.ofList letters, strainOf?_eq_some_iff.mp hstrain, ?_⟩
    rw [← String.toList_inj, String.toList_append, Level.toList_toString_number,
      String.toList_ofList, String.toList_ofList, List.singleton_append]

/-- No letter or word starts with the digit of a level. -/
theorem ofCapitals?_digit (level : Level) (letters : List Char) :
    ofCapitals? (level.digit :: letters) = (bidOf? (level.digit :: letters)).map bid := by
  rw [ofCapitals?]
  cases level <;> simp [Level.digit]

/-- Capitals are read as a call if they are one of its spellings, and only then. -/
theorem ofCapitals?_eq_some_iff :
    ofCapitals? characters = some call ↔ String.ofList characters ∈ call.spellings := by
  have hwords : ∀ call ∈ [pass, double, redouble], ∀ word ∈ call.spellings,
      ofCapitals? word.toList = some call := by decide
  constructor
  · intro h
    rw [ofCapitals?] at h
    split_ifs at h with hpass hdouble hredouble
    · cases h
      rcases hpass with rfl | rfl <;> decide
    · cases h
      rcases hdouble with rfl | rfl <;> decide
    · cases h
      rcases hredouble with rfl | rfl <;> decide
    · obtain ⟨made, hmade, rfl⟩ := Option.map_eq_some_iff.mp h
      exact mem_spellings_bid_iff.mpr (bidOf?_eq_some_iff.mp hmade)
  · intro h
    cases call with
    | bid made =>
      obtain ⟨letters, rfl, hstrain⟩ := mem_spellings_bid_iff.mp h
      rw [ofCapitals?_digit, bidOf?_eq_some_iff.mpr ⟨letters, rfl, hstrain⟩]
      rfl
    | pass | double | redouble => simpa using hwords _ (by decide) _ h

/-! ### Reading and showing -/

variable {written : String}

/-- A text is a call if it is a spelling of the call but for blanks around it and small letters. -/
theorem read_eq_ok_iff : read written = .ok call ↔ Text.normal written ∈ call.spellings := by
  rw [Text.normal, ← ofCapitals?_eq_some_iff, read]
  split <;> simp [*]

example : read "\u3000paß\n" = .ok .pass := read_eq_ok_iff.mpr (by decide)

/-- The error of a text that is no call repeats the text. -/
theorem read_eq_error_of_forall_not_mem (h : ∀ call : Call, Text.normal written ∉ call.spellings) :
    read written = .error (.unreadable written) := by
  cases hread : ofCapitals? (Text.capitals (Text.trim written.toList)) with
  | none => rw [read, hread]
  | some call => exact absurd (ofCapitals?_eq_some_iff.mp hread) (h call)

theorem all_isPlain_text (call : Call) :
    (call.text.toList.all fun character ↦ decide (Text.IsPlain character)) = true := by
  cases call with
  | bid made =>
    have hletters :
        (made.strain.text.toList.all fun letter ↦ decide (Text.IsPlain letter)) = true := by
      cases made.strain <;> decide
    have hdigit : Text.IsPlain made.level.digit := by
      cases made.level <;> decide
    rw [text, Bid.text, String.toList_append, Level.toList_toString_number, List.singleton_append,
      List.all_cons, hletters, decide_eq_true hdigit, Bool.and_true]
  | pass | double | redouble => decide

/-- Nothing in the text of a call is a blank or a small letter. -/
theorem isPlain_of_mem_text {character : Char} (h : character ∈ call.text.toList) :
    Text.IsPlain character :=
  of_decide_eq_true (List.all_eq_true.mp call.all_isPlain_text character h)

/-- The text that a call is shown with reads as the call. -/
theorem read_text (call : Call) : read call.text = .ok call := by
  rw [read_eq_ok_iff, Text.normal_of_plain fun _ h ↦ isPlain_of_mem_text h]
  exact call.text_mem_spellings

/-- No two calls are shown alike. -/
theorem text_injective {first second : Call} (h : first.text = second.text) : first = second :=
  Except.ok.inj ((read_text first).symm.trans (h ▸ read_text second))

/-- One of the letters and words, or a digit from one to seven with letters for a strain. -/
def IsSpelling (letters : String) : Prop :=
  letters ∈ ["P", "PASS", "X", "DOUBLE", "XX", "REDOUBLE"] ∨
    ∃ level ∈ ["1", "2", "3", "4", "5", "6", "7"], ∃ strain ∈ ["C", "D", "H", "S", "N", "NT"],
      letters = level ++ strain

instance : DecidablePred IsSpelling := fun _ ↦ inferInstanceAs (Decidable (_ ∨ _))

theorem isSpelling_iff {letters : String} :
    IsSpelling letters ↔ ∃ call : Call, letters ∈ call.spellings := by
  have hwords : ["P", "PASS", "X", "DOUBLE", "XX", "REDOUBLE"] =
      [pass, double, redouble].flatMap spellings := rfl
  have hdigits : ["1", "2", "3", "4", "5", "6", "7"] =
      Level.all.map fun level ↦ toString level.number := rfl
  have hstrains : ["C", "D", "H", "S", "N", "NT"] = Strain.all.flatMap Strain.spellings := rfl
  rw [IsSpelling, hwords, hdigits, hstrains]
  constructor
  · rintro (hword | ⟨level, hlevel, strain, hstrain, rfl⟩)
    · obtain ⟨call, -, hcall⟩ := List.mem_flatMap.mp hword
      exact ⟨call, hcall⟩
    · obtain ⟨level, -, rfl⟩ := List.mem_map.mp hlevel
      obtain ⟨denomination, -, hletters⟩ := List.mem_flatMap.mp hstrain
      exact ⟨of level denomination, List.mem_map.mpr ⟨strain, hletters, rfl⟩⟩
  · rintro ⟨call, hcall⟩
    cases call with
    | bid made =>
      obtain ⟨strain, hletters, rfl⟩ := List.mem_map.mp hcall
      refine .inr ⟨_, List.mem_map.mpr ⟨made.level, ?_, rfl⟩, strain,
        List.mem_flatMap.mpr ⟨made.strain, ?_, hletters⟩, rfl⟩
      · cases made.level <;> decide
      · cases made.strain <;> decide
    | pass | double | redouble => exact .inl (List.mem_flatMap.mpr ⟨_, by decide, hcall⟩)

/-- A text is a call exactly if it is a spelling but for blanks around it and small letters, and
the error of any other text repeats it.  What a text reads as, it spells, and the text that the call
is shown with reads as the same call; two texts read as the same call exactly if their calls are
shown alike. -/
theorem read_isSpelling (written : String) :
    ((∃ call, read written = .ok call) ↔ IsSpelling (Text.normal written)) ∧
    (¬ IsSpelling (Text.normal written) → read written = .error (.unreadable written)) ∧
    ∀ call, read written = .ok call →
      Text.normal written ∈ call.spellings ∧ read call.text = .ok call ∧
      ∀ other said, read other = .ok said → (said = call ↔ said.text = call.text) := by
  refine ⟨?_, fun h ↦ ?_, fun call hcall ↦ ⟨read_eq_ok_iff.mp hcall, read_text call, ?_⟩⟩
  · simp only [isSpelling_iff, read_eq_ok_iff]
  · exact read_eq_error_of_forall_not_mem fun call hcall ↦ h (isSpelling_iff.mpr ⟨call, hcall⟩)
  · exact fun other said _ ↦ ⟨congrArg text, text_injective⟩

end Call

/-! ### Bids given as values -/

theorem Level.ofNumber?_eq_some_iff {number : Int} {level : Level} :
    Level.ofNumber? number = some level ↔ number = level.number := by
  constructor
  · exact fun h ↦ Text.eq_key_of_find? (fun level : Level ↦ (level.number : Int)) h
  · rintro rfl
    exact Level.ofNumber?_number level

theorem Strain.ofText?_eq_some_iff {text : String} {strain : Strain} :
    Strain.ofText? text = some strain ↔ text = strain.text := by
  constructor
  · exact fun h ↦ Text.eq_key_of_find? Strain.text h
  · rintro rfl
    cases strain <;> rfl

namespace Bid

variable {level strain : Value} {made : Given}

/-- A level is given as its number, and the lowest also as true. -/
theorem levelOf?_eq_some_iff {value : Value} {level : Level} :
    levelOf? value = some level ↔ value = .int level.number ∨ value = .bool true ∧ level = 1 := by
  cases value with
  | int number => simp [levelOf?, levelNumber?, Level.ofNumber?_eq_some_iff]
  | bool truth => cases truth <;> cases level <;> simp [levelOf?, levelNumber?] <;> decide
  | _ => simp [levelOf?, levelNumber?]

theorem strainOf?_eq_some_iff {value : Value} {strain : Strain} :
    strainOf? value = some strain ↔ value = .text strain.text := by
  cases value with
  | text content => rw [strainOf?, Strain.ofText?_eq_some_iff, Value.text.injEq]
  | _ => simp [strainOf?]

theorem given_eq_ok_iff :
    given level strain = .ok made ↔
      made.level = level ∧ levelOf? level = some made.bid.level ∧
        strainOf? strain = some made.bid.strain := by
  obtain ⟨⟨number, denomination⟩, spelt⟩ := made
  rw [given]
  cases levelOf? level with
  | none => simp
  | some _ =>
    cases strainOf? strain with
    | none => simp
    | some _ =>
      simp only [Except.ok.injEq, Given.mk.injEq, Bid.mk.injEq, Option.some.injEq]
      tauto

/-- The text of a bid whose level is given as a number is that of the bid. -/
theorem text_of_given_number (h : made.level = .int made.bid.level.number) :
    made.text = made.bid.text := by
  have hwritten (level : Level) : (Value.int level.number).written = toString level.number := by
    cases level <;> rfl
  rw [Given.text, h, hwritten, text]

/-- The text of a bid whose level is given as true is no call. -/
theorem read_text_of_given_true (h : made.level = .bool true) :
    Call.read made.text = .error (.unreadable made.text) := by
  have hspelling (strain : Strain) : ¬ Call.IsSpelling (Text.normal ("True" ++ strain.text)) := by
    cases strain <;> decide
  refine Call.read_eq_error_of_forall_not_mem fun call hcall ↦ hspelling made.bid.strain ?_
  rw [Given.text, h] at hcall
  exact Call.isSpelling_iff.mpr ⟨call, hcall⟩

/-- A level and a strain make a bid if the level is a number from one to seven or true, and the
strain is written as the strains are.  The text of the bid then reads as the bid, unless the level
is true: that text is no call. -/
theorem given_text_reads (level strain : Value) :
    ((∃ made, given level strain = .ok made) ↔
      (level = .bool true ∨ ∃ number : Level, level = .int number.number) ∧
        ∃ denomination : Strain, strain = .text denomination.text) ∧
    ∀ made, given level strain = .ok made →
      (Call.read made.text = .ok (.bid made.bid) ↔ level ≠ .bool true) ∧
      (level = .bool true → Call.read made.text = .error (.unreadable made.text)) := by
  simp only [given_eq_ok_iff, levelOf?_eq_some_iff, strainOf?_eq_some_iff]
  refine ⟨⟨?_, ?_⟩, ?_⟩
  · rintro ⟨made, -, hlevel, hstrain⟩
    exact ⟨hlevel.elim (fun h ↦ .inr ⟨_, h⟩) fun h ↦ .inl h.1, _, hstrain⟩
  · rintro ⟨rfl | ⟨number, rfl⟩, denomination, rfl⟩
    · exact ⟨⟨⟨1, denomination⟩, .bool true⟩, rfl, .inr ⟨rfl, rfl⟩, rfl⟩
    · exact ⟨⟨⟨number, denomination⟩, .int number.number⟩, rfl, .inl rfl, rfl⟩
  · rintro made ⟨rfl, hlevel, -⟩
    rcases hlevel with hnumber | ⟨htrue, -⟩
    · have hread : Call.read made.text = .ok (.bid made.bid) :=
        text_of_given_number hnumber ▸ Call.read_text (.bid made.bid)
      simp [hnumber, hread]
    · simp [htrue, read_text_of_given_true htrue]

/-- One club whose level is given as true is shown with a text that is no call. -/
theorem given_true_unreadable :
    ∃ made, given (.bool true) (.text "C") = .ok made ∧ made.bid = ⟨1, .clubs⟩ ∧
      made.text = "TrueC" ∧ Call.read made.text = .error (.unreadable "TrueC") :=
  ⟨⟨⟨1, .clubs⟩, .bool true⟩, rfl, rfl, rfl, read_text_of_given_true rfl⟩

end Bid

end BridgeBidding
