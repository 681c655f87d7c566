import BridgeBidding.Proofs.Hand.Evaluation
import BridgeBidding.Proofs.Hand.Reading

/-!
# Hands and their texts

A hand is shown suit by suit, with the ranks from the highest to the lowest, whatever the order of
its cards.  Without the letters of the suits, and with dots between the groups, the text reads as a
hand with the same cards (`Hand.read_dotted_text`), so two hands are shown alike exactly if they
have the same cards (`Hand.text_eq_iff`).

Written as a list of cards, a hand is read in its own order.  What is read, and which texts are
refused, is put together in `Hand.notation_round_trips`.
-/

set_option autoImplicit false
set_option relaxedAutoImplicit false

namespace BridgeBidding.Hand

variable {hand first second : Hand} {suit : Suit} {rank : Rank}

/-! ### The text of a hand -/

theorem mem_ranksIn_iff : rank ∈ hand.ranksIn suit ↔ ⟨suit, rank⟩ ∈ hand.cards := by
  rw [ranksIn, List.mem_filter, List.mem_reverse, List.contains_iff_mem]
  exact and_iff_right rank.mem_all

theorem nodup_ranksIn (hand : Hand) (suit : Suit) : (hand.ranksIn suit).Nodup := by
  have hall : Rank.all.reverse.Nodup := by decide
  exact hall.filter _

/-- The ranks of the four suits are the cards of the hand in another order. -/
theorem ofRanks_ranksIn_perm (hand : Hand) : (Card.ofRanks hand.ranksIn).Perm hand.cards := by
  have hnodup := Card.nodup_ofRanks_iff.mpr hand.nodup_ranksIn
  refine (List.perm_ext_iff_of_nodup hnodup hand.nodup_cards).mpr fun card ↦ ?_
  rw [Card.mem_ofRanks_iff, mem_ranksIn_iff]

/-- Hands with the same cards are shown alike. -/
theorem text_of_forall_mem_iff (h : ∀ card, card ∈ first.cards ↔ card ∈ second.cards) :
    first.text = second.text := by
  have hranks (suit : Suit) : first.ranksIn suit = second.ranksIn suit := by
    refine List.filter_congr fun rank _ ↦ ?_
    rw [Bool.eq_iff_iff, List.contains_iff_mem, List.contains_iff_mem]
    exact h ⟨suit, rank⟩
  have hsuits : first.suitText = second.suitText := by
    funext suit
    rw [suitText, suitText, hranks]
  rw [text, text, hsuits]

/-- The text of a hand with dots between its groups, and without the character that each group
starts with, the letter of its suit. -/
def dotted (shown : String) : String :=
  String.ofList (['.'].intercalate ((Text.splitOn ' ' shown.toList).map List.tail))

/-- The letters of the ranks in each suit. -/
def letters (hand : Hand) (suit : Suit) : List Char := (hand.ranksIn suit).map Rank.letter

theorem isPlain_of_mem_letters {character : Char} (h : character ∈ hand.letters suit) :
    Text.IsPlain character := by
  obtain ⟨rank, -, rfl⟩ := List.mem_map.mp h
  exact rank.isPlain_letter

theorem dot_not_mem_letters (hand : Hand) (suit : Suit) : '.' ∉ hand.letters suit := by
  intro h
  obtain ⟨rank, -, hrank⟩ := List.mem_map.mp h
  cases rank <;> exact absurd hrank (by decide)

theorem toList_text (hand : Hand) :
    hand.text.toList =
      [' '].intercalate (Suit.all.map fun suit ↦ suit.letter :: hand.letters suit) := by
  rw [text, String.toList_intercalate, List.map_map]
  simp only [suitText, letters, Function.comp_def, String.toList_ofList]
  rfl

/-- No letter is a blank, so the blanks stand between the suits. -/
theorem splitOn_text (hand : Hand) :
    Text.splitOn ' ' hand.text.toList =
      Suit.all.map fun suit ↦ suit.letter :: hand.letters suit := by
  have hsome : (Suit.all.map fun suit ↦ suit.letter :: hand.letters suit) ≠ [] :=
    List.cons_ne_nil _ _
  refine (Text.splitOn_eq_iff hsome).mpr ⟨hand.toList_text, fun piece hpiece hblank ↦ ?_⟩
  obtain ⟨suit, -, rfl⟩ := List.mem_map.mp hpiece
  have hplain : Text.IsPlain ' ' := by
    rcases List.mem_cons.mp hblank with hletter | hmem
    · exact hletter ▸ suit.isPlain_letter
    · exact isPlain_of_mem_letters hmem
  exact absurd hplain (by decide)

theorem dotted_text (hand : Hand) :
    dotted hand.text = String.ofList (['.'].intercalate (Suit.all.map hand.letters)) := by
  rw [dotted, splitOn_text, List.map_map]
  rfl

example : dotted "SAKQJT98 H65432 D C2" = "AKQJT98.65432..2" := by decide

theorem isGrouped_dotted_text (hand : Hand) : IsGrouped (dotted hand.text) hand.letters := by
  refine ⟨?_, hand.dot_not_mem_letters⟩
  rw [dotted_text, String.toList_ofList]
  refine Text.trim_of_plain fun character hmem ↦ ?_
  rcases Text.mem_of_mem_intercalate hmem with rfl | ⟨group, hgroup, hcharacter⟩
  · decide
  · obtain ⟨suit, -, rfl⟩ := List.mem_map.mp hgroup
    exact isPlain_of_mem_letters hcharacter

theorem isGroup_letters (hand : Hand) (suit : Suit) : IsGroup (hand.letters suit) := by
  refine .inr fun character hmem ↦ ?_
  obtain ⟨rank, -, rfl⟩ := List.mem_map.mp hmem
  exact standsForRank_iff.mpr ⟨rank, rank.ofCharacter?_letter⟩

theorem ofGroup_letters (hand : Hand) (suit : Suit) :
    Rank.ofGroup (hand.letters suit) = hand.ranksIn suit := by
  have hread : Rank.ofCharacter? ∘ Rank.letter = some := funext Rank.ofCharacter?_letter
  rw [Rank.ofGroup, letters, List.filterMap_map, hread, List.filterMap_some]

/-- The text of a hand, with dots instead of the letters of the suits, reads as the hand with its
cards in order. -/
theorem read_dotted_text (hand : Hand) :
    ∃ other, read (dotted hand.text) = .ok other ∧ other.cards.Perm hand.cards := by
  have hperm := hand.ofRanks_ranksIn_perm
  obtain ⟨other, hother, hcards, -⟩ := exists_ofCards_of_perm hperm
  refine ⟨other, ?_, hcards ▸ hperm⟩
  rw [read_of_isGroup hand.isGrouped_dotted_text hand.isGroup_letters]
  simp only [ofGroup_letters]
  exact hother

/-- Two hands are shown alike if they have the same cards, and only then. -/
theorem text_eq_iff :
    first.text = second.text ↔ ∀ card, card ∈ first.cards ↔ card ∈ second.cards := by
  refine ⟨fun h card ↦ ?_, text_of_forall_mem_iff⟩
  obtain ⟨firstRead, hfirst, hfirstCards⟩ := first.read_dotted_text
  obtain ⟨secondRead, hsecond, hsecondCards⟩ := second.read_dotted_text
  rw [h, hsecond] at hfirst
  cases hfirst
  rw [← hfirstCards.mem_iff, hsecondCards.mem_iff]

/-- The texts of the cards of a hand, one by one, read as the hand.  The text of a hand, with dots
between its groups instead of the letters of the suits, reads as a hand with the same cards, which
is shown alike, and hands are shown alike exactly if they have the same cards.  A text is a hand
exactly if it is four groups that are hyphens or stand for ranks, with thirteen ranks in all and
none twice in a group, and any other text is refused with an error that explains why. -/
theorem notation_round_trips :
    (∀ hand : Hand, readList (hand.cards.map Card.text) = .ok hand) ∧
    (∀ hand : Hand, ∃ other, read (dotted hand.text) = .ok other ∧
      (∀ card, card ∈ other.cards ↔ card ∈ hand.cards) ∧ other.text = hand.text) ∧
    (∀ first second : Hand,
      first.text = second.text ↔ ∀ card, card ∈ first.cards ↔ card ∈ second.cards) ∧
    ∀ written : String,
      ((∃ hand, read written = .ok hand) ↔ ∃ groups, IsNotation written groups) ∧
      ((¬ ∃ groups, IsNotation written groups) →
        ∃ error, read written = .error error ∧ Explains written error) := by
  refine ⟨readList_texts, fun hand ↦ ?_, fun _ _ ↦ text_eq_iff, fun written ↦
    ⟨⟨fun ⟨hand, hread⟩ ↦ ?_, fun ⟨groups, h⟩ ↦ ?_⟩, read_of_not_isNotation⟩⟩
  · obtain ⟨other, hread, hperm⟩ := hand.read_dotted_text
    have hcards (card : Card) : card ∈ other.cards ↔ card ∈ hand.cards := hperm.mem_iff
    exact ⟨other, hread, hcards, text_of_forall_mem_iff hcards⟩
  · by_contra hnone
    obtain ⟨error, herror, -⟩ := read_of_not_isNotation hnone
    rw [hread] at herror
    cases herror
  · obtain ⟨hand, hread, -⟩ := read_of_isNotation h
    exact ⟨hand, hread⟩

/-- A void may be a hyphen, letters may be small and blanks may stand around the text.  A small
letter repeats the capital. -/
theorem notation_round_trips_smallLetters :
    (∃ hand, read " akqjt98.65432.-.2\n" = .ok hand) ∧
      ∃ error, read "AaQ2.J53.T98.642" = .error error ∧ Explains "AaQ2.J53.T98.642" error := by
  obtain ⟨-, -, -, hread⟩ := notation_round_trips
  constructor
  · have hgrouped : IsGrouped " akqjt98.65432.-.2\n"
        (groupsOf "akqjt98".toList "65432".toList ['-'] ['2']) :=
      splitOn_trim_eq_iff.mp (by decide)
    refine (hread " akqjt98.65432.-.2\n").1.mpr ⟨_, hgrouped, fun suit ↦ ?_, rfl, fun suit ↦ ?_⟩
    · cases suit <;> decide
    · cases suit <;> decide
  · refine (hread "AaQ2.J53.T98.642").2 ?_
    rintro ⟨groups, h⟩
    have hpieces : Text.splitOn '.' (Text.trim "AaQ2.J53.T98.642".toList) =
        ["AaQ2".toList, "J53".toList, "T98".toList, "642".toList] := by decide
    have hspades : "AaQ2".toList = groups .spades :=
      (List.cons.inj (hpieces.symm.trans (splitOn_trim_eq_iff.mpr h.isGrouped))).1
    have hnodup := h.nodup_capitals .spades
    rw [← hspades] at hnodup
    exact absurd hnodup (by decide)

end BridgeBidding.Hand
