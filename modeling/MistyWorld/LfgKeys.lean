import MistyWorld.JoinedWords
import MistyWorld.LfgQueue

/-!
# Keys of guids

Two lists of guids have the same key exactly when they have the same guids
(`concatenateGuids_eq_iff`). A guid is mentioned in a key exactly when its decimals are a part of
those of one of the guids of the key (`mentions_concatenateGuids`) : of itself, or of another one.
-/

open List

namespace MistyWorld

variable {check check' : List ℕ} {guid guid' : ℕ} {key : LfgKey}

theorem mem_guidSet : guid ∈ guidSet check ↔ guid ∈ check := by
  rw [guidSet, mem_insertionSort, mem_dedup]

theorem guidSet_eq_iff : guidSet check = guidSet check' ↔ ∀ guid, guid ∈ check ↔ guid ∈ check' := by
  constructor
  · intro h guid
    rw [← mem_guidSet, h, mem_guidSet]
  · intro h
    have hperm : check.dedup.Perm check'.dedup :=
      (perm_ext_iff_of_nodup (nodup_dedup _) (nodup_dedup _)).2 fun guid => by
        rw [mem_dedup, mem_dedup, h]
    exact ((perm_insertionSort _ _).trans
      (hperm.trans (perm_insertionSort _ _).symm)).eq_of_sortedLE
      sortedLE_insertionSort sortedLE_insertionSort

theorem guidString_ne_nil (guid : ℕ) : guidString guid ≠ [] :=
  Nat.toDigits_ne_nil

theorem bar_not_mem_guidString (guid : ℕ) : '|' ∉ guidString guid := fun h =>
  absurd (Nat.isDigit_of_mem_toDigits (by decide) (by decide) h) (by decide)

theorem guidString_inj : guidString guid = guidString guid' ↔ guid = guid' := by
  refine ⟨fun h => ?_, fun h => h ▸ rfl⟩
  have hdigits := congrArg (Nat.ofDigitChars 10 · 0) h
  simpa only [guidString, Nat.ofDigitChars_ten_toDigits] using hdigits

theorem bar_not_mem_map : ∀ w ∈ (guidSet check).map guidString, '|' ∉ w := by
  intro w hw
  obtain ⟨guid, -, rfl⟩ := mem_map.1 hw
  exact bar_not_mem_guidString guid

theorem map_guidSet_ne_nil (h : check ≠ []) : (guidSet check).map guidString ≠ [] := by
  obtain ⟨guid, hguid⟩ := exists_mem_of_ne_nil check h
  exact ne_nil_of_mem (mem_map_of_mem (mem_guidSet.2 hguid))

/-- Lists with the same key have the same guids. -/
theorem concatenateGuids_eq_iff (h : check ≠ []) (h' : check' ≠ []) :
    concatenateGuids check = concatenateGuids check' ↔ ∀ guid, guid ∈ check ↔ guid ∈ check' := by
  rw [← guidSet_eq_iff]
  refine ⟨fun heq => ?_, fun heq => by rw [concatenateGuids, heq, concatenateGuids]⟩
  have hmap := JoinedWords.intercalate_inj bar_not_mem_map bar_not_mem_map
    (map_guidSet_ne_nil h) (map_guidSet_ne_nil h') heq
  exact map_injective_iff.2 (fun _ _ => guidString_inj.1) hmap

/-- A guid is found in a key when its decimals are a part of those of a guid of the key. -/
theorem mentions_concatenateGuids (h : check ≠ []) :
    (concatenateGuids check).mentions guid ↔
      ∃ guid' ∈ check, guidString guid <:+: guidString guid' := by
  rw [LfgKey.mentions, decide_eq_true_eq, concatenateGuids,
    JoinedWords.infix_intercalate_iff (bar_not_mem_guidString guid) (map_guidSet_ne_nil h)]
  simp only [mem_map, exists_exists_and_eq_and, mem_guidSet]

/-- A guid is found in the keys of its lists. -/
theorem mentions_of_mem (h : guid ∈ check) : (concatenateGuids check).mentions guid :=
  (mentions_concatenateGuids (ne_nil_of_mem h)).2 ⟨guid, h, infix_refl _⟩

/-- A key is that of a list with a guid. -/
def LfgKey.holds (key : LfgKey) (guid : ℕ) : Prop :=
  ∃ check, guid ∈ check ∧ key = concatenateGuids check

theorem holds_concatenateGuids (h : check ≠ []) :
    (concatenateGuids check).holds guid ↔ guid ∈ check := by
  constructor
  · rintro ⟨check', hmem, heq⟩
    exact ((concatenateGuids_eq_iff h (ne_nil_of_mem hmem)).1 heq guid).2 hmem
  · exact fun hmem => ⟨check, hmem, rfl⟩

theorem LfgKey.holds.mentions (h : key.holds guid) : key.mentions guid := by
  obtain ⟨check, hmem, rfl⟩ := h
  exact mentions_of_mem hmem

end MistyWorld
