import BridgeBidding.Proofs.Card.Reading
import BridgeBidding.Proofs.Hand.Counting
import BridgeBidding.Proofs.Success
import BridgeBidding.Proofs.Text.Split

/-!
# Which texts are hands

The text of a hand is four groups with dots between them, but for blanks around it.  A group is a
hyphen or consists of characters that stand for ranks.  With thirteen of these, none of them twice
in a group, the text is a hand (`Hand.read_of_isNotation`).  Any other text is refused, and the
error explains why (`Hand.read_of_not_isNotation`): it repeats a text that is not four groups, shows
a character that stands for no rank, counts the cards or lists those that are repeated.
-/

set_option autoImplicit false
set_option relaxedAutoImplicit false

namespace BridgeBidding

open Success

namespace Hand

/-! ### Lists of cards -/

theorem readCards_texts (cards : List Card) : readCards (cards.map Card.text) = .ok cards := by
  induction cards with
  | nil => rfl
  | cons card rest ih =>
    rw [List.map_cons, readCards, Card.read_text, ok_bind, ih, ok_bind]
    rfl

theorem readCards_append {first second : List String} {cards others : List Card}
    (hfirst : readCards first = .ok cards) (hsecond : readCards second = .ok others) :
    readCards (first ++ second) = .ok (cards ++ others) := by
  induction first generalizing cards with
  | nil =>
    cases hfirst
    exact hsecond
  | cons written rest ih =>
    rw [readCards, bind_eq_ok_iff] at hfirst
    obtain ⟨card, hcard, hrest⟩ := hfirst
    obtain ⟨read, hread, hcards⟩ := bind_eq_ok_iff.mp hrest
    cases hcards
    rw [List.cons_append, readCards, hcard, ok_bind, ih hread, ok_bind]
    rfl

theorem readCards_flatMap {α : Type} {codes : α → List String} {cards : α → List Card}
    {items : List α} (h : ∀ item ∈ items, readCards (codes item) = .ok (cards item)) :
    readCards (items.flatMap codes) = .ok (items.flatMap cards) := by
  induction items with
  | nil => rfl
  | cons item rest ih =>
    obtain ⟨hitem, hrest⟩ := List.forall_mem_cons.mp h
    exact readCards_append hitem (ih hrest)

/-- Reading stops at the first text that is no card. -/
theorem readCards_eq_error_of_mem {texts : List String}
    (h : ∃ written ∈ texts, ∀ card, Card.read written ≠ .ok card) :
    ∃ written ∈ texts, (∀ card, Card.read written ≠ .ok card) ∧
      readCards texts = .error (.unreadableCard written) := by
  induction texts with
  | nil => simp at h
  | cons first rest ih =>
    by_cases hfirst : ∃ card, Card.read first = .ok card
    · obtain ⟨card, hcard⟩ := hfirst
      obtain ⟨written, hmem, hnone⟩ := h
      have hrest : ∃ written ∈ rest, ∀ card, Card.read written ≠ .ok card := by
        rcases List.mem_cons.mp hmem with rfl | hmem
        · exact absurd hcard (hnone card)
        · exact ⟨written, hmem, hnone⟩
      obtain ⟨stuck, hstuck, hunread, herror⟩ := ih hrest
      refine ⟨stuck, List.mem_cons_of_mem _ hstuck, hunread, ?_⟩
      rw [readCards, hcard, ok_bind, herror, error_bind]
    · have hnone := not_exists.mp hfirst
      refine ⟨first, List.mem_cons_self, hnone, ?_⟩
      rw [readCards, Card.read_eq_error_of_forall_ne hnone, error_bind]

/-- The cards of a hand, written one by one, read as the hand. -/
theorem readList_texts (hand : Hand) : readList (hand.cards.map Card.text) = .ok hand := by
  rw [readList, readCards_texts, ok_bind, ofCards_cards]

/-! ### Groups -/

/-- The character stands for a rank: in capitals it is a digit from two to nine or the letter of a
higher rank. -/
def StandsForRank (character : Char) : Prop :=
  ∃ letter ∈ "23456789TJQKA".toList, Text.capital character = [letter]

/-- A group is a hyphen, or its characters stand for ranks; an empty group has none. -/
def IsGroup (group : List Char) : Prop :=
  group = ['-'] ∨ ∀ character ∈ group, StandsForRank character
variable {group : List Char}

theorem standsForRank_iff {character : Char} :
    StandsForRank character ↔ ∃ rank, Rank.ofCharacter? character = some rank := by
  have hletters : "23456789TJQKA".toList = Rank.all.map Rank.letter := by decide
  simp only [StandsForRank, hletters, Rank.ofCharacter?_eq_some_iff]
  constructor
  · rintro ⟨letter, hletter, hcapital⟩
    obtain ⟨rank, -, rfl⟩ := List.mem_map.mp hletter
    exact ⟨rank, hcapital⟩
  · rintro ⟨rank, hcapital⟩
    exact ⟨rank.letter, List.mem_map_of_mem rank.mem_all, hcapital⟩

instance : DecidablePred StandsForRank := fun character ↦
  decidable_of_iff ((Rank.ofCharacter? character).isSome = true) (by
    rw [Option.isSome_iff_exists, standsForRank_iff])

instance : DecidablePred IsGroup := fun group ↦
  decidable_of_iff
    (group = ['-'] ∨ (group.all fun character ↦ decide (StandsForRank character)) = true)
    (by simp only [IsGroup, List.all_eq_true, decide_eq_true_iff])

/-- A hyphen stands for no rank. -/
theorem hyphen_not_mem (h : ∀ character ∈ group, StandsForRank character) : '-' ∉ group := by
  intro hmem
  obtain ⟨rank, hrank⟩ := standsForRank_iff.mp (h '-' hmem)
  have hplain : Text.capital '-' = ['-'] := by decide
  rw [Rank.ofCharacter?_eq_some_iff, hplain, List.singleton_inj] at hrank
  cases rank <;> exact absurd hrank (by decide)

theorem mem_groupCodes_iff {suit : Suit} {code : String} :
    code ∈ groupCodes suit group ↔
      group ≠ ['-'] ∧ ∃ character ∈ group, String.ofList [suit.letter, character] = code := by
  rw [groupCodes]
  split_ifs with hhyphen <;> simp [hhyphen]

theorem forall_read_code_ne_iff {suit : Suit} {character : Char} :
    (∀ card, Card.read (String.ofList [suit.letter, character]) ≠ .ok card) ↔
      ¬ StandsForRank character := by
  rw [standsForRank_iff, ← not_exists, not_iff_not]
  simp only [Card.read_code_eq_ok_iff]
  exact ⟨fun ⟨card, _, hrank⟩ ↦ ⟨card.rank, hrank⟩, fun ⟨rank, hrank⟩ ↦ ⟨⟨suit, rank⟩, rfl, hrank⟩⟩

theorem readCards_groupCodes (h : IsGroup group) (suit : Suit) :
    readCards (groupCodes suit group) = .ok ((Rank.ofGroup group).map (Card.mk suit)) := by
  rcases h with rfl | h
  · rfl
  · have hhyphen : group ≠ ['-'] := fun heq ↦ hyphen_not_mem h (heq ▸ List.mem_cons_self)
    rw [groupCodes, if_neg hhyphen]
    clear hhyphen
    induction group with
    | nil => rfl
    | cons character rest ih =>
      obtain ⟨hcharacter, hrest⟩ := List.forall_mem_cons.mp h
      obtain ⟨rank, hrank⟩ := standsForRank_iff.mp hcharacter
      have hcode : Card.read (String.ofList [suit.letter, character]) = .ok ⟨suit, rank⟩ :=
        Card.read_code_eq_ok_iff.mpr ⟨rfl, hrank⟩
      rw [List.map_cons, readCards, hcode, ok_bind, ih hrest, ok_bind, Rank.ofGroup_cons hrank]
      rfl

theorem length_ofGroup (h : IsGroup group) :
    (Rank.ofGroup group).length = group.countP fun character ↦ decide (character ≠ '-') := by
  rcases h with rfl | h
  · rfl
  · rw [Rank.ofGroup, List.length_filterMap_eq_countP]
    refine List.countP_congr fun character hmem ↦ ?_
    rw [Option.isSome_iff_exists, decide_eq_true_iff]
    exact iff_of_true (standsForRank_iff.mp (h character hmem))
      (ne_of_mem_of_not_mem hmem (hyphen_not_mem h))

theorem capitals_eq_map_letter (h : ∀ character ∈ group, StandsForRank character) :
    Text.capitals group = (Rank.ofGroup group).map Rank.letter := by
  induction group with
  | nil => rfl
  | cons character rest ih =>
    obtain ⟨hcharacter, hrest⟩ := List.forall_mem_cons.mp h
    obtain ⟨rank, hrank⟩ := standsForRank_iff.mp hcharacter
    rw [Text.capitals, List.flatMap_cons, ← Text.capitals, ih hrest, Rank.ofGroup_cons hrank,
      Rank.ofCharacter?_eq_some_iff.mp hrank]
    rfl

theorem count_letter_capitals (h : IsGroup group) (rank : Rank) :
    (Text.capitals group).count rank.letter = (Rank.ofGroup group).count rank := by
  rcases h with rfl | h
  · cases rank <;> decide
  · rw [capitals_eq_map_letter h]
    exact List.count_map_of_injective _ _ (fun _ _ ↦ Rank.letter_injective) _

theorem nodup_capitals_iff (h : IsGroup group) :
    (Text.capitals group).Nodup ↔ (Rank.ofGroup group).Nodup := by
  rcases h with rfl | h
  · decide
  · rw [capitals_eq_map_letter h]
    exact List.nodup_map_iff fun _ _ ↦ Rank.letter_injective

/-! ### Texts of four groups -/

/-- Four groups by their suits. -/
def groupsOf (spades hearts diamonds clubs : List Char) : Suit → List Char
  | .spades => spades
  | .hearts => hearts
  | .diamonds => diamonds
  | .clubs => clubs

/-- The text is four groups with dots between them, but for blanks around it. -/
def IsGrouped (written : String) (groups : Suit → List Char) : Prop :=
  Text.trim written.toList = ['.'].intercalate (Suit.all.map groups) ∧ ∀ suit, '.' ∉ groups suit

/-- How many characters the groups have that are no hyphens. -/
def cardsWritten (groups : Suit → List Char) : Nat :=
  (Suit.all.map fun suit ↦ (groups suit).countP fun character ↦ decide (character ≠ '-')).sum

/-- The text is four groups, and these are the ranks of thirteen different cards. -/
structure IsNotation (written : String) (groups : Suit → List Char) : Prop where
  isGrouped : IsGrouped written groups
  isGroup : ∀ suit, IsGroup (groups suit)
  thirteen : cardsWritten groups = 13
  nodup_capitals : ∀ suit, (Text.capitals (groups suit)).Nodup

variable {written : String} {groups : Suit → List Char}

theorem splitOn_trim_eq_iff :
    Text.splitOn '.' (Text.trim written.toList) = Suit.all.map groups ↔
      IsGrouped written groups := by
  have hsome : Suit.all.map groups ≠ [] := List.cons_ne_nil _ _
  rw [Text.splitOn_eq_iff hsome, IsGrouped]
  refine and_congr_right' ⟨fun h suit ↦ h _ (List.mem_map_of_mem suit.mem_all), ?_⟩
  intro h piece hpiece
  obtain ⟨suit, -, rfl⟩ := List.mem_map.mp hpiece
  exact h suit

theorem read_of_isGrouped (h : IsGrouped written groups) :
    read written = readList (Suit.all.flatMap fun suit ↦ groupCodes suit (groups suit)) := by
  have hpieces : Text.splitOn '.' (Text.trim written.toList) =
      [groups .spades, groups .hearts, groups .diamonds, groups .clubs] :=
    splitOn_trim_eq_iff.mpr h
  rw [read, hpieces]
  simp only [Suit.all, List.flatMap_cons, List.flatMap_nil, List.append_nil, List.append_assoc]

theorem read_of_not_isGrouped (h : ∀ groups, ¬ IsGrouped written groups) :
    read written = .error (.notFourSuits written) := by
  rw [read]
  split
  next spades hearts diamonds clubs hpieces =>
    exact absurd (splitOn_trim_eq_iff.mp hpieces) (h (groupsOf spades hearts diamonds clubs))
  · rfl

theorem read_of_isGroup (hgrouped : IsGrouped written groups)
    (hgroup : ∀ suit, IsGroup (groups suit)) :
    read written = ofCards (Card.ofRanks fun suit ↦ Rank.ofGroup (groups suit)) := by
  rw [read_of_isGrouped hgrouped, readList,
    readCards_flatMap fun suit _ ↦ readCards_groupCodes (hgroup suit) suit, ok_bind]
  rfl

/-- If there is something else among the groups, the error shows a character that stands for no
rank, after the letter of its suit. -/
theorem read_of_not_isGroup (hgrouped : IsGrouped written groups)
    (h : ∃ suit, ¬ IsGroup (groups suit)) :
    ∃ suit, groups suit ≠ ['-'] ∧ ∃ character ∈ groups suit, ¬ StandsForRank character ∧
      read written = .error (.unreadableCard (String.ofList [suit.letter, character])) := by
  have hunreadable : ∃ code ∈ Suit.all.flatMap fun suit ↦ groupCodes suit (groups suit),
      ∀ card, Card.read code ≠ .ok card := by
    obtain ⟨suit, hsuit⟩ := h
    obtain ⟨hhyphen, hnone⟩ := not_or.mp hsuit
    push Not at hnone
    obtain ⟨character, hmem, hcharacter⟩ := hnone
    have hcode : String.ofList [suit.letter, character] ∈ groupCodes suit (groups suit) :=
      mem_groupCodes_iff.mpr ⟨hhyphen, character, hmem, rfl⟩
    exact ⟨_, List.mem_flatMap.mpr ⟨suit, suit.mem_all, hcode⟩,
      forall_read_code_ne_iff.mpr hcharacter⟩
  obtain ⟨code, hcode, hnone, herror⟩ := readCards_eq_error_of_mem hunreadable
  obtain ⟨suit, -, hsuit⟩ := List.mem_flatMap.mp hcode
  obtain ⟨hhyphen, character, hmem, rfl⟩ := mem_groupCodes_iff.mp hsuit
  refine ⟨suit, hhyphen, character, hmem, forall_read_code_ne_iff.mp hnone, ?_⟩
  rw [read_of_isGrouped hgrouped, readList, herror, error_bind]

/-! ### Which texts are accepted -/

theorem length_ofRanks_ofGroup (h : ∀ suit, IsGroup (groups suit)) :
    (Card.ofRanks fun suit ↦ Rank.ofGroup (groups suit)).length = cardsWritten groups := by
  simp only [Card.length_ofRanks, cardsWritten, length_ofGroup (h _)]

theorem nodup_ofRanks_ofGroup_iff (h : ∀ suit, IsGroup (groups suit)) :
    (Card.ofRanks fun suit ↦ Rank.ofGroup (groups suit)).Nodup ↔
      ∀ suit, (Text.capitals (groups suit)).Nodup := by
  simp only [Card.nodup_ofRanks_iff, nodup_capitals_iff (h _)]

/-- The notation of a hand is read as the cards of its groups. -/
theorem read_of_isNotation (h : IsNotation written groups) :
    ∃ hand, read written = .ok hand ∧
      hand.cards = Card.ofRanks fun suit ↦ Rank.ofGroup (groups suit) := by
  have hlength := (length_ofRanks_ofGroup h.isGroup).trans h.thirteen
  have hnodup := (nodup_ofRanks_ofGroup_iff h.isGroup).mpr h.nodup_capitals
  refine ⟨⟨_, hlength, hnodup⟩, ?_, rfl⟩
  rw [read_of_isGroup h.isGrouped h.isGroup, ofCards, dif_pos hlength, dif_pos hnodup]

theorem mem_repeatedTexts_iff {cards : List Card} {text : String} :
    text ∈ repeatedTexts cards ↔ ∃ card : Card, 1 < cards.count card ∧ text = card.text := by
  simp only [repeatedTexts, List.mem_mergeSort, List.mem_eraseDups, List.mem_map, List.mem_filter,
    decide_eq_true_iff]
  constructor
  · rintro ⟨card, ⟨-, hcount⟩, rfl⟩
    exact ⟨card, hcount, rfl⟩
  · rintro ⟨card, hcount, rfl⟩
    exact ⟨card, ⟨List.count_pos_iff.mp (by omega), hcount⟩, rfl⟩

/-- What the error says about the text is so: the text is not four groups, or a character in it
stands for no rank, or its characters stand for some other number of cards, or the cards that are
listed are those that it repeats. -/
def Explains (written : String) : HandError → Prop
  | .notFourSuits given => given = written ∧ ∀ groups, ¬ IsGrouped written groups
  | .unreadableCard given => ∃ groups, IsGrouped written groups ∧
      ∃ suit, groups suit ≠ ['-'] ∧ ∃ character ∈ groups suit, ¬ StandsForRank character ∧
        given = String.ofList [suit.letter, character]
  | .wrongCount count => ∃ groups, IsGrouped written groups ∧ (∀ suit, IsGroup (groups suit)) ∧
      count = cardsWritten groups ∧ count ≠ 13
  | .repeated texts => ∃ groups, IsGrouped written groups ∧ (∀ suit, IsGroup (groups suit)) ∧
      cardsWritten groups = 13 ∧ ∀ text, text ∈ texts ↔
        ∃ card : Card, 1 < (Text.capitals (groups card.suit)).count card.rank.letter ∧
          text = card.text

/-- A text that is no notation of a hand is refused, and the error explains why. -/
theorem read_of_not_isNotation (h : ¬ ∃ groups, IsNotation written groups) :
    ∃ error, read written = .error error ∧ Explains written error := by
  by_cases hgrouped : ∃ groups, IsGrouped written groups
  · obtain ⟨groups, hgrouped⟩ := hgrouped
    by_cases hgroup : ∀ suit, IsGroup (groups suit)
    · have hread := read_of_isGroup hgrouped hgroup
      have hlength := length_ofRanks_ofGroup hgroup
      rw [ofCards] at hread
      by_cases hthirteen : cardsWritten groups = 13
      · have hrepeated := mt (nodup_ofRanks_ofGroup_iff hgroup).mp fun hnodup ↦
          h ⟨groups, hgrouped, hgroup, hthirteen, hnodup⟩
        rw [dif_pos (hlength.trans hthirteen), dif_neg hrepeated] at hread
        refine ⟨_, hread, groups, hgrouped, hgroup, hthirteen, fun text ↦ ?_⟩
        simp only [mem_repeatedTexts_iff, Card.count_ofRanks, count_letter_capitals (hgroup _)]
      · have hwrong := hlength.trans_ne hthirteen
        rw [dif_neg hwrong] at hread
        exact ⟨_, hread, groups, hgrouped, hgroup, hlength, hwrong⟩
    · obtain ⟨suit, hhyphen, character, hmem, hnone, hread⟩ :=
        read_of_not_isGroup hgrouped (not_forall.mp hgroup)
      exact ⟨_, hread, groups, hgrouped, suit, hhyphen, character, hmem, hnone, rfl⟩
  · have hnone := not_exists.mp hgrouped
    exact ⟨_, read_of_not_isGrouped hnone, rfl, hnone⟩

end Hand

end BridgeBidding
