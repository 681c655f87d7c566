import BridgeBidding.Hand.Reading
import BridgeBidding.Proofs.Text.Normal
import Mathlib.Algebra.GroupWithZero.Nat
import Mathlib.Data.List.Count
import Mathlib.Data.List.Nodup

/-!
# Which texts are cards

A text is a card if it is the text of the card but for blanks around it and small letters
(`Card.read_eq_ok_iff`), so the text of a card reads as the card.

In the text of a hand the suit is not written with every card.  Its letter is put before each
character, and the two are a card exactly if the capital of the character is the letter of a rank
(`Card.read_code_eq_ok_iff`).  The cards of such ranks, suit by suit, are `Card.ofRanks`.
-/

set_option autoImplicit false
set_option relaxedAutoImplicit false

namespace BridgeBidding

/-! ### Letters -/

namespace Suit

theorem mem_all (suit : Suit) : suit ∈ all := by
  cases suit <;> decide

theorem ofLetter?_eq_some_iff {letter : Char} {suit : Suit} :
    ofLetter? letter = some suit ↔ letter = suit.letter := by
  constructor
  · exact fun h ↦ Text.eq_key_of_find? Suit.letter h
  · rintro rfl
    cases suit <;> rfl

theorem letter_injective {first second : Suit} (h : first.letter = second.letter) :
    first = second :=
  Option.some.inj ((ofLetter?_eq_some_iff.mpr rfl).symm.trans (ofLetter?_eq_some_iff.mpr h))

theorem isPlain_letter (suit : Suit) : Text.IsPlain suit.letter := by
  cases suit <;> decide

end Suit

namespace Rank

theorem mem_all (rank : Rank) : rank ∈ all := by
  cases rank <;> decide

theorem ofLetter?_eq_some_iff {letter : Char} {rank : Rank} :
    ofLetter? letter = some rank ↔ letter = rank.letter := by
  constructor
  · exact fun h ↦ Text.eq_key_of_find? Rank.letter h
  · rintro rfl
    cases rank <;> rfl

theorem letter_injective {first second : Rank} (h : first.letter = second.letter) :
    first = second :=
  Option.some.inj ((ofLetter?_eq_some_iff.mpr rfl).symm.trans (ofLetter?_eq_some_iff.mpr h))

theorem isPlain_letter (rank : Rank) : Text.IsPlain rank.letter := by
  cases rank <;> decide

/-- The rank that a character stands for: the one whose letter is its capital. -/
def ofCharacter? (character : Char) : Option Rank :=
  match Text.capital character with
  | [letter] => ofLetter? letter
  | _ => none

theorem ofCharacter?_eq_some_iff {character : Char} {rank : Rank} :
    ofCharacter? character = some rank ↔ Text.capital character = [rank.letter] := by
  rw [ofCharacter?]
  split
  next letter hletter => rw [hletter, ofLetter?_eq_some_iff, List.singleton_inj]
  next hother => simpa using fun h ↦ hother _ h

theorem ofCharacter?_letter (rank : Rank) : ofCharacter? rank.letter = some rank :=
  ofCharacter?_eq_some_iff.mpr rank.isPlain_letter.2

/-- The ranks that the characters of a group stand for. -/
def ofGroup (group : List Char) : List Rank := group.filterMap ofCharacter?

theorem ofGroup_cons {character : Char} {rank : Rank} (h : ofCharacter? character = some rank)
    (rest : List Char) : ofGroup (character :: rest) = rank :: ofGroup rest :=
  List.filterMap_cons_some h

end Rank

/-! ### Cards -/

namespace Card

variable {characters : List Char} {card : Card} {written : String}

/-- Capitals are read as a card if they are the letters of its suit and of its rank. -/
theorem ofCapitals?_eq_some_iff :
    ofCapitals? characters = some card ↔ characters = [card.suit.letter, card.rank.letter] := by
  obtain ⟨suit, rank⟩ := card
  constructor
  · intro h
    unfold ofCapitals? at h
    split at h
    · simp only [Option.bind_eq_bind, Option.bind_eq_some_iff, Suit.ofLetter?_eq_some_iff,
        Rank.ofLetter?_eq_some_iff] at h
      obtain ⟨_, rfl, _, rfl, hcard⟩ := h
      cases hcard
      rfl
    · exact absurd h nofun
  · rintro rfl
    rw [ofCapitals?, Suit.ofLetter?_eq_some_iff.mpr rfl, Rank.ofLetter?_eq_some_iff.mpr rfl]
    rfl

/-- A text is a card if it is the text of the card but for blanks around it and small letters. -/
theorem read_eq_ok_iff : read written = .ok card ↔ Text.normal written = card.text := by
  rw [Text.normal, text, String.ofList_inj, ← ofCapitals?_eq_some_iff, read]
  split <;> simp [*]

/-- The error of a text that is no card repeats the text. -/
theorem read_eq_error_of_forall_ne (h : ∀ card, read written ≠ .ok card) :
    read written = .error (.unreadableCard written) := by
  cases hcard : ofCapitals? (Text.capitals (Text.trim written.toList)) with
  | some card => exact absurd (by rw [read, hcard]) (h card)
  | none => rw [read, hcard]

theorem isPlain_of_mem_text {character : Char} (h : character ∈ card.text.toList) :
    Text.IsPlain character := by
  rw [text, String.toList_ofList] at h
  rcases List.mem_pair.mp h with rfl | rfl
  · exact card.suit.isPlain_letter
  · exact card.rank.isPlain_letter

/-- The text of a card reads as the card. -/
theorem read_text (card : Card) : read card.text = .ok card :=
  read_eq_ok_iff.mpr (Text.normal_of_plain fun _ h ↦ isPlain_of_mem_text h)

/-- A character after the letter of a suit makes a card of the suit if it stands for a rank. -/
theorem read_code_eq_ok_iff {suit : Suit} {character : Char} :
    read (String.ofList [suit.letter, character]) = .ok card ↔
      card.suit = suit ∧ Rank.ofCharacter? character = some card.rank := by
  obtain ⟨hsuit, hcapital⟩ := suit.isPlain_letter
  rw [read_eq_ok_iff, Text.normal, text, String.ofList_inj, String.toList_ofList,
    Rank.ofCharacter?_eq_some_iff]
  by_cases hblank : Text.isBlank character = true
  -- the blank is dropped, and the letter of no rank is a blank
  · have htrim : Text.trim [suit.letter, character] = [suit.letter] :=
      Text.trim_of_surrounds ⟨[], [character], by simp, by simp, by simpa using hblank,
        by simpa using hsuit, by simpa using hsuit⟩
    rw [htrim, Text.capitals, List.flatMap_singleton, hcapital, Text.capital_of_isBlank hblank]
    refine iff_of_false (by simp) ?_
    rintro ⟨-, hrank⟩
    rw [List.singleton_inj] at hrank
    rw [hrank, card.rank.isPlain_letter.1] at hblank
    exact Bool.false_ne_true hblank
  · rw [Bool.not_eq_true] at hblank
    have htrim : Text.trim [suit.letter, character] = [suit.letter, character] :=
      Text.trim_of_surrounds ⟨[], [], by simp, by simp, by simp, by simpa using hsuit,
        by simpa using hblank⟩
    rw [htrim, Text.capitals, List.flatMap_cons, List.flatMap_singleton, hcapital,
      List.singleton_append, List.cons.injEq]
    exact and_congr_left' ⟨fun h ↦ (Suit.letter_injective h).symm, fun h ↦ h ▸ rfl⟩

/-- The cards of the given ranks, suit by suit. -/
def ofRanks (ranks : Suit → List Rank) : List Card :=
  Suit.all.flatMap fun suit ↦ (ranks suit).map (Card.mk suit)

variable {ranks : Suit → List Rank}

theorem length_ofRanks (ranks : Suit → List Rank) :
    (ofRanks ranks).length = (Suit.all.map fun suit ↦ (ranks suit).length).sum := by
  simp only [ofRanks, List.length_flatMap, List.length_map]

theorem count_map_mk (suit : Suit) (held : List Rank) (card : Card) :
    (held.map (Card.mk suit)).count card =
      if suit = card.suit then held.count card.rank else 0 := by
  by_cases hsuit : suit = card.suit
  · have hinjective : Function.Injective (Card.mk suit) := fun _ _ h ↦ (Card.mk.inj h).2
    rw [if_pos hsuit, ← List.count_map_of_injective held (Card.mk suit) hinjective, hsuit]
  · rw [if_neg hsuit, List.count_eq_zero]
    intro hmem
    obtain ⟨rank, -, rfl⟩ := List.mem_map.mp hmem
    exact hsuit rfl

theorem count_ofRanks (ranks : Suit → List Rank) (card : Card) :
    (ofRanks ranks).count card = (ranks card.suit).count card.rank := by
  simp only [ofRanks, Suit.all, List.flatMap_cons, List.flatMap_nil, List.count_append,
    List.count_nil, count_map_mk]
  cases card.suit <;> simp

theorem mem_ofRanks_iff : card ∈ ofRanks ranks ↔ card.rank ∈ ranks card.suit := by
  rw [← List.count_pos_iff, count_ofRanks, List.count_pos_iff]

theorem nodup_ofRanks_iff : (ofRanks ranks).Nodup ↔ ∀ suit, (ranks suit).Nodup := by
  simp only [List.nodup_iff_count_le_one, count_ofRanks]
  exact ⟨fun h suit rank ↦ h ⟨suit, rank⟩, fun h card ↦ h card.suit card.rank⟩

end Card

end BridgeBidding
