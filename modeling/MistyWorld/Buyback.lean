import MistyWorld.Inventory
import MistyWorld.Run

/-!
# Buyback slots

What a player has sold stays in the slots `74` to `85` of `m_items`, with its guid, price and time in
fields of the player. `AddItemToBuyBackSlot` takes the current slot, and when that is occupied it
looks for an empty one or the oldest item. The slot that is found empty is lost : the loop stops
there, and what comes after it takes the oldest of the slots before it.

So an item is evicted although there is room exactly when the current and the first slot are
occupied and another one is empty (`keeps_iff`). The first slot does not suffer from it, because the
time of an empty slot is zero.
-/

open Option Function List Word Machine

namespace MistyWorld

/-- `BUYBACK_SLOT_START`. -/
def buybackSlotStart : ℕ := 74

/-- `BUYBACK_SLOT_END`. -/
def buybackSlotEnd : ℕ := 86

/-- The buyback slots. -/
def buybackSlots : List ℕ := List.range' 74 12

/-- The part of a player that buyback uses. -/
structure Buyback where
  loginTime : ℤ
  items : ℕ → Option Item := fun _ => none
  /-- `PLAYER_FIELD_VENDORBUYBACK_SLOTS`. -/
  guid : ℕ → ℕ := fun _ => 0
  /-- `PLAYER_FIELD_BUYBACK_PRICE`. -/
  price : ℕ → ℕ := fun _ => 0
  /-- `PLAYER_FIELD_BUYBACK_TIMESTAMP`. -/
  timestamp : ℕ → ℕ := fun _ => 0
  currentBuybackSlot : ℕ := buybackSlotStart
  /-- The items in state `ITEM_REMOVED`. -/
  removed : List Item := []

namespace Buyback

/-- The loop of `AddItemToBuyBackSlot`. It ends at an empty slot, whose number is overwritten after
the loop. -/
def searchOldest (s : Buyback) : List ℕ → ℕ → ℕ → ℕ
  | [], _, oldestSlot => oldestSlot
  | i :: is, oldestTime, oldestSlot =>
    if (s.items i).isNone then oldestSlot
    else if s.timestamp (i - buybackSlotStart) < oldestTime then
      searchOldest s is (s.timestamp (i - buybackSlotStart)) i
    else searchOldest s is oldestTime oldestSlot

/-- The slot that `AddItemToBuyBackSlot` chooses. -/
def chooseSlot (s : Buyback) : ℕ :=
  if (s.items s.currentBuybackSlot).isSome then
    s.searchOldest (List.range' 75 11) (s.timestamp 0) buybackSlotStart
  else s.currentBuybackSlot

/-- `RemoveItemFromBuyBackSlot`. -/
def removeItemFromBuyBackSlot (s : Buyback) (slot : ℕ) (del : Bool) : Buyback :=
  if buybackSlotStart ≤ slot ∧ slot < buybackSlotEnd then
    let items := update s.items slot none
    let eslot := slot - buybackSlotStart
    { s with
      items
      guid := update s.guid eslot 0
      price := update s.price eslot 0
      timestamp := update s.timestamp eslot 0
      currentBuybackSlot :=
        if (items s.currentBuybackSlot).isSome then slot else s.currentBuybackSlot
      removed := if del then (s.items slot).toList ++ s.removed else s.removed }
  else s

/-- `AddItemToBuyBackSlot` at a time, with the selling prices of the templates. -/
def addItemToBuyBackSlot (sellPrice : ℕ → Option ℕ) (s : Buyback) (item : Item) (base : ℤ) :
    Buyback :=
  let slot := s.chooseSlot
  let s := s.removeItemFromBuyBackSlot slot true
  let eslot := slot - buybackSlotStart
  { s with
    items := update s.items slot (some item)
    guid := update s.guid eslot item.guid
    price := update s.price eslot
      (((sellPrice item.entry).map fun price => toU32 (price * item.count)).getD 0)
    timestamp := update s.timestamp eslot (toU32 (base - s.loginTime + 30 * 3600))
    currentBuybackSlot :=
      if s.currentBuybackSlot < buybackSlotEnd - 1 then s.currentBuybackSlot + 1
      else s.currentBuybackSlot }

end Buyback

/-- The operations on the buyback slots. -/
inductive BuybackOp
  | add (item : Item) (base : ℤ)
  | remove (slot : ℕ) (del : Bool)

namespace Buyback

/-- One operation. -/
def step (sellPrice : ℕ → Option ℕ) (s : Buyback) : BuybackOp → Buyback
  | .add item base => s.addItemToBuyBackSlot sellPrice item base
  | .remove slot del => s.removeItemFromBuyBackSlot slot del

/-- Slots other than one hold what they did, with price and time. -/
def SameBut (s s' : Buyback) (slot : ℕ) : Prop :=
  ∀ i ∈ buybackSlots, i ≠ slot → s'.items i = s.items i ∧
    s'.guid (i - buybackSlotStart) = s.guid (i - buybackSlotStart) ∧
    s'.price (i - buybackSlotStart) = s.price (i - buybackSlotStart) ∧
    s'.timestamp (i - buybackSlotStart) = s.timestamp (i - buybackSlotStart)

instance (s s' : Buyback) (slot : ℕ) : Decidable (SameBut s s' slot) :=
  inferInstanceAs (Decidable (∀ i ∈ buybackSlots, _))

/-- An added item goes into an empty slot while there is one, and otherwise in place of the item
with the smallest time. -/
def Keeps (sellPrice : ℕ → Option ℕ) (s : Buyback) (item : Item) (base : ℤ) : Prop :=
  if ∃ i ∈ buybackSlots, s.items i = none then
    ∃ slot ∈ buybackSlots, s.items slot = none ∧
      (s.addItemToBuyBackSlot sellPrice item base).items slot = some item ∧
      SameBut s (s.addItemToBuyBackSlot sellPrice item base) slot
  else
    ∃ slot ∈ buybackSlots, (∀ i ∈ buybackSlots,
        s.timestamp (slot - buybackSlotStart) ≤ s.timestamp (i - buybackSlotStart)) ∧
      (s.addItemToBuyBackSlot sellPrice item base).items slot = some item ∧
      SameBut s (s.addItemToBuyBackSlot sellPrice item base) slot

instance (sellPrice : ℕ → Option ℕ) (s : Buyback) (item : Item) (base : ℤ) :
    Decidable (Keeps sellPrice s item base) := by
  delta Keeps
  infer_instance

/-- The current slot is empty, or the first one is, or none is. -/
def Meets (s : Buyback) : Prop :=
  s.items s.currentBuybackSlot = none ∨ s.items buybackSlotStart = none ∨
    ∀ i ∈ buybackSlots, s.items i ≠ none

/-! ## The chosen slot -/

theorem mem_buybackSlots {i : ℕ} :
    i ∈ buybackSlots ↔ buybackSlotStart ≤ i ∧ i < buybackSlotEnd := by
  unfold buybackSlots buybackSlotStart buybackSlotEnd
  rw [mem_range'_1]

variable {s : Buyback}

/-- The loop keeps the slot it started with, or takes an occupied one. -/
theorem searchOldest_occupied (s : Buyback) (is : List ℕ) (oldestTime oldestSlot : ℕ) :
    s.searchOldest is oldestTime oldestSlot = oldestSlot ∨
    s.searchOldest is oldestTime oldestSlot ∈ is ∧
      s.items (s.searchOldest is oldestTime oldestSlot) ≠ none := by
  induction is generalizing oldestTime oldestSlot with
  | nil => exact .inl rfl
  | cons i is ih =>
    rw [searchOldest]
    split
    · exact .inl rfl
    · next hi =>
      rw [isNone_iff_eq_none] at hi
      split
      · rcases ih (s.timestamp (i - buybackSlotStart)) i with h | h
        · rw [h]
          exact .inr ⟨mem_cons_self, hi⟩
        · exact .inr ⟨mem_cons_of_mem i h.1, h.2⟩
      · rcases ih oldestTime oldestSlot with h | h
        · exact .inl h
        · exact .inr ⟨mem_cons_of_mem i h.1, h.2⟩

/-- Nothing is older than time zero. -/
theorem searchOldest_zero (s : Buyback) (is : List ℕ) (oldestSlot : ℕ) :
    s.searchOldest is 0 oldestSlot = oldestSlot := by
  induction is with
  | nil => rfl
  | cons i is ih =>
    rw [searchOldest, if_neg (Nat.not_lt_zero _), ih, ite_self]

/-- Over occupied slots the loop finds the smallest time. -/
theorem searchOldest_le {is : List ℕ} {oldestTime oldestSlot : ℕ} (his : ∀ i ∈ is, s.items i ≠ none)
    (ht : oldestTime = s.timestamp (oldestSlot - buybackSlotStart)) :
    ∀ i ∈ oldestSlot :: is,
      s.timestamp (s.searchOldest is oldestTime oldestSlot - buybackSlotStart) ≤
        s.timestamp (i - buybackSlotStart) := by
  induction is generalizing oldestTime oldestSlot with
  | nil =>
    intro i hi
    rw [mem_singleton.mp hi, searchOldest]
  | cons j is ih =>
    have hrest : ∀ i ∈ is, s.items i ≠ none := fun i hi => his i (mem_cons_of_mem j hi)
    rw [searchOldest, if_neg (by
      rw [isNone_iff_eq_none]
      exact his j mem_cons_self)]
    intro i hi
    split
    · next hlt =>
      have hj : ∀ i ∈ j :: is, s.timestamp (s.searchOldest is
          (s.timestamp (j - buybackSlotStart)) j - buybackSlotStart) ≤
            s.timestamp (i - buybackSlotStart) := ih hrest rfl
      rcases mem_cons.mp hi with rfl | hi
      · exact (hj j mem_cons_self).trans (hlt.le.trans_eq ht)
      · exact hj i hi
    · next hge =>
      have hold := ih hrest ht
      rcases mem_cons.mp hi with rfl | hi
      · exact hold i mem_cons_self
      · rcases mem_cons.mp hi with rfl | hi
        · exact (hold _ mem_cons_self).trans ((not_lt.mp hge).trans' ht.ge)
        · exact hold i (mem_cons_of_mem _ hi)

/-! ## Adding -/

/-- The current slot is a buyback slot, and the time of an empty slot is zero. -/
structure WF (s : Buyback) : Prop where
  current : s.currentBuybackSlot ∈ buybackSlots
  timestamp : ∀ i ∈ buybackSlots, s.items i = none → s.timestamp (i - buybackSlotStart) = 0

/-- The slot chosen is one of the buyback slots. -/
theorem chooseSlot_mem (hw : s.WF) : s.chooseSlot ∈ buybackSlots := by
  rw [chooseSlot]
  split
  · rcases searchOldest_occupied s (List.range' 75 11) (s.timestamp 0) buybackSlotStart with h | h
    · rw [h]
      decide
    · have hmem := mem_range'_1.mp h.1
      rw [mem_buybackSlots]
      unfold buybackSlotStart buybackSlotEnd at *
      omega
  · exact hw.current

theorem eslot_ne {i slot : ℕ} (hi : i ∈ buybackSlots) (hslot : slot ∈ buybackSlots) (h : i ≠ slot) :
    i - buybackSlotStart ≠ slot - buybackSlotStart := by
  rw [mem_buybackSlots] at hi hslot
  omega

/-- Only the slot is emptied. -/
theorem removeItemFromBuyBackSlot_eq {slot : ℕ} (hslot : slot ∈ buybackSlots) (del : Bool) :
    (s.removeItemFromBuyBackSlot slot del).items = update s.items slot none ∧
      (s.removeItemFromBuyBackSlot slot del).timestamp =
        update s.timestamp (slot - buybackSlotStart) 0 ∧
      SameBut s (s.removeItemFromBuyBackSlot slot del) slot := by
  rw [removeItemFromBuyBackSlot, if_pos (mem_buybackSlots.mp hslot)]
  refine ⟨rfl, rfl, fun i hi hne => ?_⟩
  have heslot := eslot_ne hi hslot hne
  exact ⟨update_of_ne hne _ _, update_of_ne heslot _ _,
    update_of_ne heslot _ _, update_of_ne heslot _ _⟩

theorem WF.remove (hw : s.WF) (slot : ℕ) (del : Bool) :
    (s.removeItemFromBuyBackSlot slot del).WF := by
  by_cases hslot : slot ∈ buybackSlots
  · obtain ⟨hitems, htime, -⟩ := removeItemFromBuyBackSlot_eq (s := s) hslot del
    refine ⟨?_, fun i hi hnone => ?_⟩
    · rw [removeItemFromBuyBackSlot, if_pos (mem_buybackSlots.mp hslot)]
      dsimp only
      split
      · exact hslot
      · exact hw.current
    · rw [htime]
      rcases eq_or_ne i slot with rfl | hne
      · exact update_self _ _ _
      · rw [hitems, update_of_ne hne] at hnone
        rw [update_of_ne (eslot_ne hi hslot hne)]
        exact hw.timestamp i hi hnone
  · rw [removeItemFromBuyBackSlot, if_neg fun h => hslot (mem_buybackSlots.mpr h)]
    exact hw

variable (sellPrice : ℕ → Option ℕ) in
/-- The item is put in the chosen slot, and the other slots stay. -/
theorem addItemToBuyBackSlot_eq (hw : s.WF) (item : Item) (base : ℤ) :
    (s.addItemToBuyBackSlot sellPrice item base).items s.chooseSlot = some item ∧
      SameBut s (s.addItemToBuyBackSlot sellPrice item base) s.chooseSlot := by
  have hslot := chooseSlot_mem hw
  obtain ⟨-, -, hsame⟩ := removeItemFromBuyBackSlot_eq (s := s) hslot true
  refine ⟨update_self _ _ _, fun i hi hne => ?_⟩
  obtain ⟨hitems, hguid, hprice, htime⟩ := hsame i hi hne
  have heslot := eslot_ne hi hslot hne
  exact ⟨(update_of_ne hne _ _).trans hitems,
    (update_of_ne heslot _ _).trans hguid,
    (update_of_ne heslot _ _).trans hprice,
    (update_of_ne heslot _ _).trans htime⟩

variable {sellPrice : ℕ → Option ℕ}

theorem WF.add (hw : s.WF) (item : Item) (base : ℤ) :
    (s.addItemToBuyBackSlot sellPrice item base).WF := by
  have hremove := hw.remove s.chooseSlot true
  refine ⟨?_, fun i hi hnone => ?_⟩
  · have hcurrent := mem_buybackSlots.mp hremove.current
    rw [mem_buybackSlots, addItemToBuyBackSlot]
    dsimp only
    split <;> omega
  · obtain ⟨hput, hsame⟩ := addItemToBuyBackSlot_eq sellPrice hw item base
    rcases eq_or_ne i s.chooseSlot with rfl | hne
    · exact absurd (hput.symm.trans hnone) (some_ne_none item)
    · obtain ⟨hitems, -, -, htime⟩ := hsame i hi hne
      rw [htime]
      exact hw.timestamp i hi (hitems.symm.trans hnone)

/-- Adding keeps all items while there is room exactly when the slot that is found is not lost. -/
theorem keeps_iff (hw : s.WF) (item : Item) (base : ℤ) : Keeps sellPrice s item base ↔ s.Meets := by
  have hmem := chooseSlot_mem hw
  obtain ⟨hput, hsame⟩ := addItemToBuyBackSlot_eq sellPrice hw item base
  have hintoEmpty : s.items s.chooseSlot = none → Keeps sellPrice s item base := fun hnone => by
    rw [Keeps, if_pos ⟨s.chooseSlot, hmem, hnone⟩]
    exact ⟨s.chooseSlot, hmem, hnone, hput, hsame⟩
  constructor
  · intro hkeeps
    by_contra hmeets
    rw [Meets, not_or, not_or] at hmeets
    obtain ⟨hcurrent, hfirst, hfull⟩ := hmeets
    push Not at hfull
    have hoccupied : s.items s.chooseSlot ≠ none := by
      rw [chooseSlot, if_pos (isSome_iff_ne_none.mpr hcurrent)]
      rcases searchOldest_occupied s (List.range' 75 11) (s.timestamp 0) buybackSlotStart with h | h
      · rw [h]
        exact hfirst
      · exact h.2
    rw [Keeps, if_pos hfull] at hkeeps
    obtain ⟨slot, hslot, hnone, hsome, -⟩ := hkeeps
    have hne : slot ≠ s.chooseSlot := by
      rintro rfl
      exact hoccupied hnone
    rw [(hsame slot hslot hne).1, hnone] at hsome
    exact some_ne_none item hsome.symm
  · rintro (hcurrent | hfirst | hfull)
    · refine hintoEmpty ?_
      rw [chooseSlot, if_neg (by rw [hcurrent]; decide)]
      exact hcurrent
    · by_cases hcurrent : s.items s.currentBuybackSlot = none
      · refine hintoEmpty ?_
        rw [chooseSlot, if_neg (by rw [hcurrent]; decide)]
        exact hcurrent
      · refine hintoEmpty ?_
        have hzero : s.timestamp 0 = 0 := hw.timestamp buybackSlotStart (by decide) hfirst
        rw [chooseSlot, if_pos (isSome_iff_ne_none.mpr hcurrent), hzero, searchOldest_zero]
        exact hfirst
    · rw [Keeps, if_neg fun ⟨i, hi, hnone⟩ => hfull i hi hnone]
      refine ⟨s.chooseSlot, hmem, fun i hi => ?_, hput, hsame⟩
      have hcurrent := hfull _ hw.current
      rw [chooseSlot, if_pos (isSome_iff_ne_none.mpr hcurrent)]
      have hrest : ∀ i ∈ List.range' 75 11, s.items i ≠ none := fun i hi =>
        hfull i (mem_cons_of_mem buybackSlotStart hi)
      exact searchOldest_le hrest rfl i hi

/-! ## Runs -/

theorem wf_start (loginTime : ℤ) : WF { loginTime } :=
  ⟨mem_cons_self, fun _ _ _ => rfl⟩

theorem wf_run (sellPrice : ℕ → Option ℕ) (loginTime : ℤ) (ops : List BuybackOp) :
    (run (step sellPrice) { loginTime } ops).WF := by
  refine run_of_invariant (fun s op hw => ?_) ops (wf_start loginTime)
  cases op with
  | add item base => exact hw.add item base
  | remove slot del => exact hw.remove slot del

end Buyback

open Buyback

/-- In every state that is reached, an item is added without loss exactly when the current or the
first slot is empty, or none is. -/
theorem buyback_run_iff (sellPrice : ℕ → Option ℕ) (loginTime : ℤ) (ops : List BuybackOp)
    (item : Item) (base : ℤ) :
    Keeps sellPrice (run (step sellPrice) { loginTime } ops) item base ↔
      (run (step sellPrice) { loginTime } ops).Meets :=
  keeps_iff (wf_run sellPrice loginTime ops) item base

/-- Twelve items are sold, two are bought back, and one more is sold. -/
def lossyOps : List BuybackOp :=
  (List.range 12).map (fun n => .add { guid := n + 1, entry := 7, count := 1 } n) ++
    [.remove 75 false, .remove 77 false, .add { guid := 13, entry := 7, count := 1 } 12]

/-- The next one takes the place of the oldest item, although a slot is empty. -/
theorem not_keeps_lossyOps : ¬Keeps (fun _ => none)
    (run (step fun _ => none) { loginTime := 0 } lossyOps)
    { guid := 14, entry := 7, count := 1 } 13 := by
  decide +kernel

end MistyWorld
