import BridgeBidding.Text.Blank
import BridgeBidding.Text.Capital
import Mathlib.Data.List.Basic
import Mathlib.Data.List.TakeWhile

/-!
# Texts without blanks, in capitals

`Text.trim` leaves what stands between the blanks at the start of a text and those at its end: what
is left neither starts nor ends with a blank, and nothing else is (`Text.trim_eq_iff`).
`Text.normal` puts it in capitals.  A text of characters that are not blank and are their own
capitals stays as it is (`Text.normal_of_plain`).

Letters and words in the text are then looked up among those of a kind.  What is found is the one
with this letter or word (`Text.eq_key_of_find?`).
-/

set_option autoImplicit false
set_option relaxedAutoImplicit false

namespace BridgeBidding.Text

variable {characters core : List Char}

/-- The text is the core with blanks before and after it, and the core neither starts nor ends with
a blank. -/
def Surrounds (characters core : List Char) : Prop :=
  ∃ before after, characters = before ++ core ++ after ∧
    (∀ character ∈ before, isBlank character = true) ∧
    (∀ character ∈ after, isBlank character = true) ∧
    (∀ character ∈ core.head?, isBlank character = false) ∧
    ∀ character ∈ core.getLast?, isBlank character = false

theorem trimStart_of_head? (h : ∀ character ∈ characters.head?, isBlank character = false) :
    trimStart characters = characters := by
  cases characters with
  | nil => rfl
  | cons first rest => exact List.dropWhile_cons_of_neg (by simp [h first rfl])

theorem head?_trimStart {character : Char} (h : character ∈ (trimStart characters).head?) :
    isBlank character = false := by
  have hhead := List.head?_dropWhile_not isBlank characters
  rw [trimStart, Option.mem_def] at h
  rwa [h] at hhead

theorem exists_blanks (characters : List Char) :
    ∃ blanks, (∀ character ∈ blanks, isBlank character = true) ∧
      characters = blanks ++ trimStart characters :=
  ⟨characters.takeWhile isBlank, fun _ hmem ↦ List.mem_takeWhile_imp hmem,
    List.takeWhile_append_dropWhile.symm⟩

theorem trim_of_surrounds (h : Surrounds characters core) : trim characters = core := by
  obtain ⟨before, after, rfl, hbefore, hafter, hhead, hlast⟩ := h
  have hstart : trimStart (before ++ core ++ after) = trimStart (core ++ after) := by
    rw [List.append_assoc]
    exact List.dropWhile_append_of_pos hbefore
  rw [trim, hstart]
  cases core with
  | nil =>
    rw [List.nil_append, trimStart, List.dropWhile_eq_nil_iff.mpr hafter]
    rfl
  | cons first rest =>
    rw [trimStart_of_head? (by simpa using hhead), trimEnd, List.reverse_append, trimStart,
      List.dropWhile_append_of_pos fun character hmem ↦
        hafter character (List.mem_reverse.mp hmem)]
    rw [← trimStart, trimStart_of_head? (by rwa [List.head?_reverse]), List.reverse_reverse]

theorem surrounds_trim (characters : List Char) : Surrounds characters (trim characters) := by
  obtain ⟨before, hbefore, hstart⟩ := exists_blanks characters
  obtain ⟨after, hafter, hreverse⟩ := exists_blanks (trimStart characters).reverse
  have hend : trimStart characters = trim characters ++ after.reverse := by
    rw [trim, trimEnd, ← List.reverse_append, ← hreverse, List.reverse_reverse]
  refine ⟨before, after.reverse, ?_, hbefore,
    fun character hmem ↦ hafter character (List.mem_reverse.mp hmem),
    fun character hmem ↦ ?_, fun character hmem ↦ ?_⟩
  · rw [List.append_assoc, ← hend, ← hstart]
  · have hfirst : (trimStart characters).head? = some character := by
      rw [hend, List.head?_append, Option.mem_def.mp hmem, Option.some_or]
    exact head?_trimStart hfirst
  · rw [trim, trimEnd, List.getLast?_reverse] at hmem
    exact head?_trimStart hmem

/-- What is left of a text is what stands between the blanks around it. -/
theorem trim_eq_iff : trim characters = core ↔ Surrounds characters core :=
  ⟨fun h ↦ h ▸ surrounds_trim characters, trim_of_surrounds⟩

/-! ### Capitals -/

/-- The text without the blanks around it, in capitals. -/
def normal (written : String) : String := String.ofList (capitals (trim written.toList))

/-- The character is not blank, and it is its own capital. -/
def IsPlain (character : Char) : Prop :=
  isBlank character = false ∧ capital character = [character]

instance (character : Char) : Decidable (IsPlain character) := inferInstanceAs (Decidable (_ ∧ _))

/-- A blank has no other capital. -/
theorem capital_of_isBlank {character : Char} (h : isBlank character = true) :
    capital character = [character] := by
  have hcodes : ∀ range ∈ blankRanges, ∀ offset < range.2 + 1 - range.1,
      capital (Char.ofNat (range.1 + offset)) = [Char.ofNat (range.1 + offset)] := by
    decide +kernel
  obtain ⟨range, hrange, hbounds⟩ := List.any_eq_true.mp h
  rw [Bool.and_eq_true, decide_eq_true_iff, decide_eq_true_iff] at hbounds
  have hcode := hcodes range hrange (character.toNat - range.1) (by omega)
  rwa [Nat.add_sub_cancel' hbounds.1, Char.ofNat_toNat] at hcode

theorem trim_of_plain (h : ∀ character ∈ characters, IsPlain character) :
    trim characters = characters :=
  trim_of_surrounds ⟨[], [], by simp, by simp, by simp,
    fun character hmem ↦ (h character (List.mem_of_mem_head? hmem)).1,
    fun character hmem ↦ (h character (List.mem_of_mem_getLast? hmem)).1⟩

theorem capitals_of_plain (h : ∀ character ∈ characters, IsPlain character) :
    capitals characters = characters :=
  (List.flatMap_congr fun character hmem ↦ (h character hmem).2).trans
    (List.flatMap_singleton' characters)

/-- A text of plain characters is read as it stands. -/
theorem normal_of_plain {written : String} (h : ∀ character ∈ written.toList, IsPlain character) :
    normal written = written := by
  rw [normal, trim_of_plain h, capitals_of_plain h, String.ofList_toList]

/-! ### Looking up -/

theorem eq_key_of_find? {α β : Type} [BEq β] [LawfulBEq β] {all : List α} {sought : β} {found : α}
    (key : α → β) (h : (all.find? fun item ↦ key item == sought) = some found) :
    sought = key found := by
  have hfound := List.find?_some h
  exact (beq_iff_eq.mp hfound).symm

end BridgeBidding.Text
