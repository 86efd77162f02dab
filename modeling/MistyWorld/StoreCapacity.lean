import MistyWorld.Placement

/-!
# How much can be stored

The units of an entry that fit into an inventory (`storeRoom`) are those of the free slots and of
the stacks that can be filled, in the backpack and in the equipped bags the item may go into.
`Player::CanStoreItem` fills a plan from them, phase by phase, so that a search to its end leaves
only what the slots it has been to cannot take (`search_cases`, `mem_places_of_room`).

The slots it has been to are not all of them : in every bag but the requested one the slot with the
number of the requested slot is passed over (`searchedSlots`). So a store can be refused while
there is room.

`Player::CanStoreNewItem` says how many units it has no place for. The number is right as long as
the units over the limit of the entry are no more than those asked for (`OverLimit`).
-/

open Option Word FirstFit Finset

namespace MistyWorld

namespace Inventory

variable (env : ItemEnv) (inv : Inventory)

/-! ## Room -/

/-- The units of an item that fit at a position : a whole stack in a free slot, what is missing to a
whole stack where one can be filled. -/
def room (proto : ItemTemplate) (pos : Pos) : ℕ :=
  match inv.getItemByPos env pos with
  | none => proto.getMaxStackSize
  | some it =>
    if proto.stackable ≠ 1 ∧ it.canBeMergedPartlyWith proto = .ok then
      proto.getMaxStackSize - it.count
    else 0

/-- The position is a slot of a bag that the item may go into. -/
def inBag (proto : ItemTemplate) (pos : Pos) : Bool :=
  (inv.getBagByPos env pos.1).any fun b =>
    pos.2 < env.bagSize b && (env.template b.entry).any (itemCanGoIntoBag proto)

/-- The slots of the backpack, and of the equipped bags that the item may go into. -/
def storeSlots (proto : ItemTemplate) : Finset Pos :=
  positions.filter fun p =>
    (p.1 = inventorySlotBag0 ∧ inventorySlotItemStart ≤ p.2 ∧ p.2 < inventorySlotItemEnd) ∨
      (p.1 ∈ bagSlots ∧ inv.inBag env proto p)

/-- The slots that a search for a requested bag and slot goes to. -/
def searchedSlots (bag slot : ℕ) (proto : ItemTemplate) : Finset Pos :=
  positions.filter fun p =>
    p = (bag, slot) ∨ (p.1 = bag ∧ inv.inBag env proto p ∧ p.2 ≠ slot) ∨
      (p ∈ inv.storeSlots env proto ∧ (p.1 = inventorySlotBag0 ∨ p.2 ≠ slot))

/-- The units of an entry that fit into the inventory. -/
def storeRoom (entry : ℕ) : ℕ :=
  match env.template entry with
  | some proto => ∑ p ∈ inv.storeSlots env proto, inv.room env proto p
  | none => 0

/-- The units of an entry that fit into the slots that a search goes to. -/
def searchedRoom (bag slot entry : ℕ) : ℕ :=
  match env.template entry with
  | some proto => ∑ p ∈ inv.searchedSlots env bag slot proto, inv.room env proto p
  | none => 0

variable {env inv} {proto : ItemTemplate} {bag slot : ℕ} {p : Pos}

theorem room_of_free_slot (h : inv.getItemByPos env p = none) :
    inv.room env proto p = proto.getMaxStackSize := by
  rw [room, h]

/-- A stack of the entry is filled up, and nothing else that is there gets units. -/
theorem room_of_item {it : Item} (h : inv.getItemByPos env p = some it) (hpos : 1 ≤ it.count) :
    inv.room env proto p = if it.canBeMergedPartlyWith proto = .ok then
      proto.getMaxStackSize - it.count else 0 := by
  simp only [room, h]
  by_cases hmerge : it.canBeMergedPartlyWith proto = .ok
  · obtain ⟨-, hlt⟩ := canBeMergedPartlyWith_ok hmerge
    have hstack : proto.stackable ≠ 1 := by
      intro hone
      rw [ItemTemplate.getMaxStackSize, hone] at hlt
      norm_num at hlt
      omega
    rw [if_pos ⟨hstack, hmerge⟩, if_pos hmerge]
  · rw [if_neg fun h => hmerge h.2, if_neg hmerge]

/-- With no item to move, what is at a slot is in the way. -/
theorem otherItem_none (o : Option Item) : otherItem none o = o := by
  cases o <;> rfl

/-- The space a phase finds is the room there is. -/
theorem room_of_space_eq {merge : Bool} (hmerge : merge = true → proto.stackable ≠ 1) {s : ℕ}
    (h : inv.space env proto merge none p = some s) : s = inv.room env proto p ∧ 1 ≤ s := by
  unfold space at h
  rw [otherItem_none] at h
  cases hp : inv.getItemByPos env p with
  | none =>
    rw [hp] at h
    split_ifs at h
    obtain rfl := some.inj h
    exact ⟨(room_of_free_slot hp).symm, proto.getMaxStackSize_pos⟩
  | some it =>
    rw [hp] at h
    simp only at h
    split_ifs at h with hcond
    obtain rfl := some.inj h
    rw [Bool.and_eq_true, decide_eq_true_eq] at hcond
    obtain ⟨-, hlt⟩ := canBeMergedPartlyWith_ok hcond.2
    refine ⟨?_, by omega⟩
    simp only [room, hp]
    rw [if_pos ⟨hmerge hcond.1, hcond.2⟩]

/-- Where there is room, the phase for stacks or the phase for free slots finds it. -/
theorem space_of_room (h : inv.room env proto p ≠ 0) :
    ∃ merge : Bool, (merge = true → proto.stackable ≠ 1) ∧
      inv.space env proto merge none p = some (inv.room env proto p) := by
  cases hp : inv.getItemByPos env p with
  | none =>
    refine ⟨false, Bool.noConfusion, ?_⟩
    rw [space, otherItem_none, hp, room_of_free_slot hp]
    rfl
  | some it =>
    simp only [room, hp] at h
    split_ifs at h with hcond
    · refine ⟨true, fun _ => hcond.1, ?_⟩
      simp only [space, otherItem_none, room, hp, hcond, Bool.true_and, ne_eq, not_false_eq_true,
        and_self, decide_true, if_true]
    · exact absurd rfl h

/-- The item goes into a specialized bag only if it has a bag family. -/
theorem bagFamily_ne_zero {bagProto : ItemTemplate} (h : itemCanGoIntoBag proto bagProto = true)
    (hspecial : ¬(bagProto.itemClass = 1 ∧ bagProto.subClass = 0)) : proto.bagFamily ≠ 0 := by
  intro hzero
  unfold itemCanGoIntoBag at h
  split at h <;> simp_all

/-! ## A search to its end -/

/-- The phase ends the search with a refusal. -/
def Phase.Stops (res : InventoryResult) : Phase → Prop
  | .required run => ∃ pl, run pl = .error res
  | .optional _ => False
  | .refuse res' cond => cond = true ∧ res' = res

/-- What the phase has given stays given. -/
def Phase.Grows : Phase → Prop
  | .required run => ∀ pl pl', run pl = .ok pl' → pl.places ⊆ pl'.places
  | .optional run => ∀ pl pl', run pl = .ok pl' → pl.places ⊆ pl'.places
  | .refuse _ _ => True

/-- The phase goes to the position, unless no units are left. -/
def Phase.Visits (p : Pos) : Phase → Prop
  | .required run => ∀ pl pl', run pl = .ok pl' → pl'.count ≠ 0 → p ∈ pl'.places
  | .optional run => ∀ pl, ∃ pl', run pl = .ok pl' ∧ (pl'.count ≠ 0 → p ∈ pl'.places)
  | .refuse _ _ => False

/-- A search is stopped by a phase, or it places all units, or it ends with units left after all
phases. -/
theorem search_cases {P : Plan Pos → Prop} (full : InventoryResult) (noSimilar : ℕ)
    {phs : List Phase} (hkeeps : ∀ ph ∈ phs, ph.Keeps P) (hgrows : ∀ ph ∈ phs, ph.Grows)
    {pl : Plan Pos} (hpl : P pl) (hc : pl.count ≠ 0) :
    (∃ ph ∈ phs, ph.Stops (search full noSimilar phs pl).res) ∨
    (∃ pl', P pl' ∧ pl'.count = 0 ∧ search full noSimilar phs pl =
      if noSimilar = 0 then ⟨.ok, pl'.dest, none⟩ else ⟨.itemMaxCount, pl'.dest, some noSimilar⟩) ∨
    ∃ pl', P pl' ∧ pl'.count ≠ 0 ∧ pl.places ⊆ pl'.places ∧
      (∀ ph ∈ phs, ∀ p, ph.Visits p → p ∈ pl'.places) ∧
      search full noSimilar phs pl =
        ⟨full, pl'.dest, some (toU32 (pl'.count + noSimilar))⟩ := by
  induction phs generalizing pl with
  | nil =>
    exact .inr (.inr ⟨pl, hpl, hc, List.Subset.refl _,
      fun ph hph => (List.not_mem_nil hph).elim, rfl⟩)
  | cons ph phs ih =>
    have hph := hkeeps ph List.mem_cons_self
    have hgrow := hgrows ph List.mem_cons_self
    -- the rest of the search, after a phase that leaves `pl₁`
    have hrest : ∀ {pl1 : Plan Pos}, P pl1 → pl1.count ≠ 0 → pl.places ⊆ pl1.places →
        (∀ p, ph.Visits p → p ∈ pl1.places) →
        search full noSimilar (ph :: phs) pl = search full noSimilar phs pl1 →
        (∃ ph' ∈ ph :: phs, ph'.Stops (search full noSimilar (ph :: phs) pl).res) ∨
        (∃ pl', P pl' ∧ pl'.count = 0 ∧ search full noSimilar (ph :: phs) pl =
          if noSimilar = 0 then ⟨.ok, pl'.dest, none⟩
          else ⟨.itemMaxCount, pl'.dest, some noSimilar⟩) ∨
        ∃ pl', P pl' ∧ pl'.count ≠ 0 ∧ pl.places ⊆ pl'.places ∧
          (∀ ph' ∈ ph :: phs, ∀ p, ph'.Visits p → p ∈ pl'.places) ∧
          search full noSimilar (ph :: phs) pl =
            ⟨full, pl'.dest, some (toU32 (pl'.count + noSimilar))⟩ := by
      intro pl1 hpl1 hc1 hsub hvis heq
      rw [heq]
      rcases ih (fun ph' h' => hkeeps ph' (List.mem_cons_of_mem _ h'))
        (fun ph' h' => hgrows ph' (List.mem_cons_of_mem _ h')) hpl1 hc1 with
        ⟨ph', hmem, hstop⟩ | hdone | ⟨pl', hpl', hc', hsub', hvis', hend⟩
      · exact .inl ⟨ph', List.mem_cons_of_mem _ hmem, hstop⟩
      · exact .inr (.inl hdone)
      · refine .inr (.inr ⟨pl', hpl', hc', List.Subset.trans hsub hsub', fun ph' h' p hp => ?_,
          hend⟩)
        rcases List.mem_cons.1 h' with rfl | h'
        · exact hsub' (hvis p hp)
        · exact hvis' ph' h' p hp
    cases ph with
    | refuse res cond =>
      by_cases hcond : cond = true
      · refine .inl ⟨_, List.mem_cons_self, hcond, ?_⟩
        rw [search, if_pos hcond]
      · refine hrest hpl hc (List.Subset.refl _) (fun p hp => hp.elim) ?_
        rw [search, if_neg hcond]
    | required run =>
      cases hrun : run pl with
      | error res =>
        refine .inl ⟨_, List.mem_cons_self, pl, ?_⟩
        rw [search, hrun]
      | ok pl1 =>
        have hpl1 := (hph pl hpl hc).1 pl1 hrun
        by_cases hzero : pl1.count = 0
        · refine .inr (.inl ⟨pl1, hpl1, hzero, ?_⟩)
          simp only [search, hrun, if_pos hzero]
        · refine hrest hpl1 hzero (hgrow pl pl1 hrun) (fun p hp => hp pl pl1 hrun hzero) ?_
          simp only [search, hrun, if_neg hzero]
    | optional run =>
      cases hrun : run pl with
      | error res =>
        refine hrest hpl hc (List.Subset.refl _) (fun p hp => ?_) (by simp only [search, hrun])
        obtain ⟨pl', hok, -⟩ := hp pl
        rw [hrun] at hok
        cases hok
      | ok pl1 =>
        have hpl1 := hph pl hpl hc pl1 hrun
        by_cases hzero : pl1.count = 0
        · refine .inr (.inl ⟨pl1, hpl1, hzero, ?_⟩)
          simp only [search, hrun, if_pos hzero]
        · refine hrest hpl1 hzero (hgrow pl pl1 hrun) (fun p hp => ?_) ?_
          · obtain ⟨pl', hok, hmem⟩ := hp pl
            rw [hrun] at hok
            cases hok
            exact hmem hzero
          · simp only [search, hrun, if_neg hzero]

/-- A search for no units is over at its first phase that must not fail. -/
theorem search_none_left {full : InventoryResult} {noSimilar : ℕ} {phs : List Phase}
    (hphs : ∀ ph ∈ phs, ph.Weighs) (hstop : ∀ ph ∈ phs, ¬ph.Stops full)
    (hfull : full ≠ .ok ∧ full ≠ .itemMaxCount) {run : Plan Pos → Except InventoryResult (Plan Pos)}
    (hmem : .required run ∈ phs) {pl : Plan Pos} (hw : pl.weight = 0) :
    (search full noSimilar phs pl).res ≠ full := by
  induction phs generalizing pl with
  | nil => cases hmem
  | cons ph phs ih =>
    have hph := hphs ph List.mem_cons_self
    have hst := hstop ph List.mem_cons_self
    have hrest : ∀ {pl'}, Phase.required run ∈ phs → Plan.weight pl' = 0 →
        (search full noSimilar phs pl').res ≠ full := fun hmem' hw' =>
      ih (fun ph' h' => hphs ph' (List.mem_cons_of_mem _ h'))
        (fun ph' h' => hstop ph' (List.mem_cons_of_mem _ h')) hmem' hw'
    have hdone : ∀ {pl' : Plan Pos}, pl'.weight = 0 → pl'.count = 0 := fun h =>
      Nat.eq_zero_of_add_eq_zero_left h
    cases ph with
    | refuse res cond =>
      have hmem' : Phase.required run ∈ phs := by simpa using hmem
      rw [search]
      split_ifs with hcond
      · exact fun h => hst ⟨hcond, h⟩
      · exact hrest hmem' hw
    | required run' =>
      cases hrun : run' pl with
      | error res =>
        simp only [search, hrun]
        rintro rfl
        exact hst ⟨pl, hrun⟩
      | ok pl' =>
        simp only [search, hrun, hdone ((hph pl pl' hrun).trans hw), if_true]
        split_ifs
        · exact hfull.1.symm
        · exact hfull.2.symm
    | optional run' =>
      have hmem' : Phase.required run ∈ phs := by simpa using hmem
      cases hrun : run' pl with
      | error res =>
        simp only [search, hrun]
        exact hrest hmem' hw
      | ok pl' =>
        simp only [search, hrun, hdone ((hph pl pl' hrun).trans hw), if_true]
        split_ifs
        · exact hfull.1.symm
        · exact hfull.2.symm

/-! ## What the phases go to -/

/-- The plans of a search for a requested bag and slot. -/
abbrev Filling (env : ItemEnv) (inv : Inventory) (proto : ItemTemplate) (bag slot total : ℕ) :
    Plan Pos → Prop :=
  Plan.Filled (inv.room env proto) (inv.searchedSlots env bag slot proto) total

variable {total count entry j i skipBag : ℕ} {merge nonSpecialized : Bool} {pl pl' : Plan Pos}
  {res : InventoryResult}

theorem mem_searchedSlots_of_inBag (hin : inv.inBag env proto (i, j) = true) (hj : j ≠ slot)
    (hi : i = bag ∨ i ∈ bagSlots) : (i, j) ∈ inv.searchedSlots env bag slot proto := by
  obtain ⟨b, hb, hcond⟩ := (any_eq_true _ _).1 hin
  rw [Bool.and_eq_true, decide_eq_true_eq] at hcond
  have hmem : (i, j) ∈ positions := Usable.mem_positions (.inr ⟨b, hb, hcond.1⟩)
  refine mem_filter.2 ⟨hmem, ?_⟩
  rcases hi with rfl | hi
  · exact .inr (.inl ⟨rfl, hin, hj⟩)
  · exact .inr (.inr ⟨mem_filter.2 ⟨hmem, .inr ⟨hi, hin⟩⟩, .inr hj⟩)

/-- A bag that is searched admits the item. -/
theorem inBag_of_canStoreItemInBag {skipSlot : ℕ} {src : Option Item}
    (h : inv.canStoreItemInBag env i proto merge nonSpecialized src skipBag
      skipSlot pl = .ok pl') {b : Item} (hb : inv.getBagByPos env i = some b)
    (hj : j < env.bagSize b) : inv.inBag env proto (i, j) = true := by
  unfold canStoreItemInBag at h
  split at h
  · cases h
  rw [hb] at h
  simp only at h
  split at h
  · cases h
  split at h
  · cases h
  split at h
  · cases h
  rename_i bagProto hproto
  split at h
  · cases h
  split at h
  · cases h
  rename_i hgo
  simpa [inBag, hb, hproto, hj] using hgo

theorem filling_inBag (hmerge : merge = true → proto.stackable ≠ 1) (hi : i = bag ∨ i ∈ bagSlots)
    (hpl : Filling env inv proto bag slot total pl) (hc : pl.count ≠ 0)
    (hrun : inv.canStoreItemInBag env i proto merge nonSpecialized none skipBag slot pl = .ok pl') :
    Filling env inv proto bag slot total pl' := by
  obtain ⟨b, hb, -, -, rfl⟩ := canStoreItemInBag_eq_ok hrun
  refine hpl.fill hc fun p hp s hs => ?_
  obtain ⟨j, hj, rfl⟩ := List.mem_map.1 hp
  obtain ⟨hj, hne⟩ := List.mem_filter.1 hj
  obtain ⟨heq, hone⟩ := room_of_space_eq hmerge hs
  exact ⟨heq, hone, mem_searchedSlots_of_inBag
    (inBag_of_canStoreItemInBag hrun hb (List.mem_range.1 hj)) (of_decide_eq_true hne) hi⟩

theorem filling_inInventorySlots {skipSlot : ℕ} (hmerge : merge = true → proto.stackable ≠ 1)
    (hpl : Filling env inv proto bag slot total pl) (hc : pl.count ≠ 0)
    (hrun : inv.canStoreItemInInventorySlots env inventorySlotItemStart inventorySlotItemEnd proto
      merge none skipBag skipSlot pl = .ok pl') : Filling env inv proto bag slot total pl' := by
  cases hrun
  refine hpl.fill hc fun p hp s hs => ?_
  obtain ⟨j, hj, rfl⟩ := List.mem_map.1 hp
  have hrange := List.mem_range'_1.1 (List.mem_of_mem_filter hj)
  obtain ⟨heq, hone⟩ := room_of_space_eq hmerge hs
  have hlt : j < inventorySlotItemEnd := by
    omega
  have hmem : (inventorySlotBag0, j) ∈ positions :=
    mem_positions_top (hlt.trans (by decide))
  have hstore : (inventorySlotBag0, j) ∈ inv.storeSlots env proto :=
    mem_filter.2 ⟨hmem, .inl ⟨rfl, hrange.1, hlt⟩⟩
  exact ⟨heq, hone, mem_filter.2 ⟨hmem, .inr (.inr ⟨hstore, .inl rfl⟩)⟩⟩

/-- What `CanStoreItem_InSpecificSlot` gives to the requested slot. -/
theorem inSpecificSlot_room (hpos : ∀ {c it}, inv.cells c = some it → 1 ≤ it.count)
    (h : inv.canStoreItemInSpecificSlot env bag slot proto false none pl = .ok pl') :
    pl' = pl.push (bag, slot) (inv.room env proto (bag, slot)) ∧
      1 ≤ inv.room env proto (bag, slot) ∧ Usable env inv (bag, slot) := by
  unfold canStoreItemInSpecificSlot at h
  simp only [any_none, Bool.false_and, Bool.false_eq_true, if_false, otherItem_none] at h
  cases hp : inv.getItemByPos env (bag, slot) with
  | none =>
    rw [hp] at h
    simp only at h
    rw [room_of_free_slot hp]
    split at h
    · rename_i hbag
      split at h
      · cases h
      · rename_i hslot
        cases h
        subst hbag
        refine ⟨rfl, proto.getMaxStackSize_pos, usable_top ?_⟩
        omega
    · split at h
      · cases h
      · rename_i bagProto hproto
        obtain ⟨b, hb, hbp⟩ := bind_eq_some_iff.1 hproto
        split_ifs at h with hsize hgo
        cases h
        refine ⟨rfl, proto.getMaxStackSize_pos, .inr ⟨b, hb, ?_⟩⟩
        simp only [ItemEnv.bagSize, hbp]
        omega
  | some it =>
    rw [hp] at h
    simp only at h
    split at h
    · rename_i hmerge
      cases h
      have hu := usable_of_getItemByPos hp
      have hcount : 1 ≤ it.count := hpos (hu.getItemByPos_eq.symm.trans hp)
      obtain ⟨-, hlt⟩ := canBeMergedPartlyWith_ok hmerge
      rw [room_of_item hp hcount, if_pos hmerge]
      exact ⟨rfl, by omega, hu⟩
    · cases h

theorem filling_inSpecificSlot (hpos : ∀ {c it}, inv.cells c = some it → 1 ≤ it.count)
    (hpl : Filling env inv proto bag slot total pl) (hc : pl.count ≠ 0)
    (hrun : inv.canStoreItemInSpecificSlot env bag slot proto false none pl = .ok pl') :
    Filling env inv proto bag slot total pl' := by
  obtain ⟨rfl, hone, hu⟩ := inSpecificSlot_room hpos hrun
  exact hpl.push hc (mem_filter.2 ⟨hu.mem_positions, .inl rfl⟩) hone

/-- A requested bag is tried twice, and one of the tries is the search. -/
theorem inBagTwice_eq_ok {src : Option Item}
    (h : inv.inBagTwice env bag slot proto src merge pl = .ok pl') :
    ∃ nonSpecialized,
      inv.canStoreItemInBag env bag proto merge nonSpecialized src nullBag slot pl = .ok pl' := by
  unfold inBagTwice at h
  split at h
  · rename_i hfirst
    cases h
    exact ⟨false, hfirst⟩
  · exact ⟨true, h⟩

/-- What the phases of a search keep. -/
theorem keeps_filling (hpos : bag ≠ nullBag → ∀ {c it}, inv.cells c = some it → 1 ≤ it.count) :
    ∀ ph ∈ inv.canStorePhases env bag slot proto false none,
      ph.Keeps (Filling env inv proto bag slot total) := by
  refine forall_canStorePhases (fun hbag _ => ?_) (fun _ merge hmerge => ?_)
    (fun merge hmerge => ?_) (fun merge nonSpecialized hmerge ph hph => ?_) ?_
  · exact fun pl hpl hc => ⟨fun pl' => filling_inSpecificSlot (hpos hbag) hpl hc,
      inSpecificSlot_ne_error_ok _ _ _ _⟩
  · unfold inBagPhase
    split_ifs
    · exact fun pl hpl hc => ⟨fun pl' => filling_inInventorySlots hmerge hpl hc,
        inInventorySlots_ne_error_ok _ _ _ _ _ _⟩
    · refine fun pl hpl hc => ⟨fun pl' hrun => ?_, inBagTwice_ne_error_ok _ _ _ _⟩
      obtain ⟨nonSpecialized, hbag⟩ := inBagTwice_eq_ok hrun
      exact filling_inBag hmerge (.inl rfl) hpl hc hbag
  · exact fun pl hpl hc => ⟨fun pl' => filling_inInventorySlots hmerge hpl hc,
      inInventorySlots_ne_error_ok _ _ _ _ _ _⟩
  · obtain ⟨i, hi, rfl⟩ := List.mem_map.1 hph
    exact fun pl hpl hc pl' => filling_inBag hmerge (.inr hi) hpl hc
  · exact fun h => InventoryResult.noConfusion h

theorem grows_canStorePhases :
    ∀ ph ∈ inv.canStorePhases env bag slot proto false none, ph.Grows := by
  have hbag : ∀ {i nonSpecialized skipBag merge} (pl pl' : Plan Pos),
      inv.canStoreItemInBag env i proto merge nonSpecialized none skipBag slot pl = .ok pl' →
        pl.places ⊆ pl'.places := by
    intro i nonSpecialized skipBag merge pl pl' h
    obtain ⟨b, -, -, -, rfl⟩ := canStoreItemInBag_eq_ok h
    exact places_subset_fill _ _ pl
  have hslots : ∀ {merge} (pl pl' : Plan Pos),
      inv.canStoreItemInInventorySlots env inventorySlotItemStart inventorySlotItemEnd proto merge
        none bag slot pl = .ok pl' → pl.places ⊆ pl'.places := by
    intro merge pl pl' h
    cases h
    exact places_subset_fill _ _ pl
  refine forall_canStorePhases (fun _ _ pl pl' h => ?_) (fun _ merge _ => ?_)
    (fun merge _ => hslots)
    (fun merge nonSpecialized _ ph hph => ?_) trivial
  · obtain ⟨-, s, rfl⟩ := inSpecificSlot_push h
    exact pl.places_subset_push _ s
  · unfold inBagPhase
    split_ifs
    · exact hslots
    · intro pl pl' h
      obtain ⟨nonSpecialized, h⟩ := inBagTwice_eq_ok h
      exact hbag pl pl' h
  · obtain ⟨i, -, rfl⟩ := List.mem_map.1 hph
    exact hbag

/-! ## Every slot with room is visited -/

/-- A bag that the item may go into is searched, unless it is to be skipped. -/
theorem canStoreItemInBag_ok {skipSlot : ℕ} (hi : i ≠ skipBag) {b : Item}
    (hb : inv.getBagByPos env i = some b) {bagProto : ItemTemplate}
    (hproto : env.template b.entry = some bagProto) (hgo : itemCanGoIntoBag proto bagProto = true)
    (merge : Bool) (pl : Plan Pos) :
    inv.canStoreItemInBag env i proto merge (bagProto.itemClass = 1 && bagProto.subClass = 0) none
      skipBag skipSlot pl = .ok (fill (inv.space env proto merge none)
        (((List.range (env.bagSize b)).filter fun j => j ≠ skipSlot).map fun j => (i, j)) pl) := by
  unfold canStoreItemInBag
  rw [if_neg hi, hb]
  simp only [hproto, hgo, notSource, all_none, any_none, ne_eq, not_true_eq_false,
    Bool.not_true, Bool.false_eq_true, if_false]

theorem visits_inBag {b : Item} (hj : j < env.bagSize b) (hne : j ≠ slot)
    (hspace : inv.space env proto merge none (i, j) = some (inv.room env proto (i, j)))
    (hc : (fill (inv.space env proto merge none)
      (((List.range (env.bagSize b)).filter fun j => j ≠ slot).map fun j => (i, j)) pl).count ≠ 0) :
    (i, j) ∈ (fill (inv.space env proto merge none)
      (((List.range (env.bagSize b)).filter fun j => j ≠ slot).map fun j => (i, j)) pl).places :=
  mem_places_fill (List.mem_map.2 ⟨j, List.mem_filter.2 ⟨List.mem_range.2 hj, decide_eq_true hne⟩,
    rfl⟩) hspace hc

/-- The slots of the requested bag. -/
theorem visits_inBagPhase (hin : inv.inBag env proto (bag, j) = true) (hne : j ≠ slot)
    (hspace : inv.space env proto merge none (bag, j) = some (inv.room env proto (bag, j))) :
    (inv.inBagPhase env inventorySlotItemStart inventorySlotItemEnd bag slot proto none
      merge).Visits (bag, j) := by
  obtain ⟨b, hb, hcond⟩ := (any_eq_true _ _).1 hin
  rw [Bool.and_eq_true, decide_eq_true_eq] at hcond
  have hbag0 : bag ≠ inventorySlotBag0 := ne_bag0_of_isBagSlot (getBagByPos_eq_some hb).1
  rw [inBagPhase, if_neg hbag0]
  intro pl pl' hrun hc
  obtain ⟨nonSpecialized, hrun⟩ := inBagTwice_eq_ok hrun
  obtain ⟨b', hb', -, -, rfl⟩ := canStoreItemInBag_eq_ok hrun
  obtain rfl := some.inj (hb.symm.trans hb')
  exact visits_inBag hcond.1 hne hspace hc

/-- The slots of the backpack. -/
theorem visits_slotsPhase (h1 : inventorySlotItemStart ≤ j) (h2 : j < inventorySlotItemEnd)
    (hne : ¬(bag = inventorySlotBag0 ∧ j = slot))
    (hspace : inv.space env proto merge none (inventorySlotBag0, j) =
      some (inv.room env proto (inventorySlotBag0, j))) :
    (inv.slotsPhase env inventorySlotItemStart inventorySlotItemEnd bag slot proto none
      merge).Visits (inventorySlotBag0, j) := by
  intro pl pl' hrun hc
  cases hrun
  refine mem_places_fill (List.mem_map.2 ⟨j, List.mem_filter.2 ⟨?_, ?_⟩, rfl⟩) hspace hc
  · refine List.mem_range'_1.2 ⟨h1, ?_⟩
    omega
  · exact decide_eq_true hne

/-- The slots of an equipped bag that is not the requested one. -/
theorem visits_eachBag (hi : i ∈ bagSlots) (hbag : i ≠ bag)
    (hin : inv.inBag env proto (i, j) = true) (hne : j ≠ slot)
    (hspace : inv.space env proto merge none (i, j) = some (inv.room env proto (i, j))) :
    ∃ bagProto, itemCanGoIntoBag proto bagProto = true ∧
      ∃ ph ∈ inv.eachBag env bagSlots bag slot proto none merge
        (bagProto.itemClass = 1 && bagProto.subClass = 0), ph.Visits (i, j) := by
  obtain ⟨b, hb, hcond⟩ := (any_eq_true _ _).1 hin
  rw [Bool.and_eq_true, decide_eq_true_eq] at hcond
  obtain ⟨bagProto, hproto, hgo⟩ := (any_eq_true _ _).1 hcond.2
  refine ⟨bagProto, hgo, _, List.mem_map.2 ⟨i, hi, rfl⟩, fun pl => ⟨_,
    canStoreItemInBag_ok hbag hb hproto hgo merge pl, visits_inBag hcond.1 hne hspace⟩⟩

section

variable (hmerge : merge = true → proto.stackable ≠ 1)
include hmerge

theorem slotsPhase_mem {slotBegin slotEnd : ℕ} {bags : List ℕ} {beforeFree : List Phase} :
    inv.slotsPhase env slotBegin slotEnd bag slot proto none merge ∈
      inv.anywherePhases env slotBegin slotEnd bags bag slot proto none beforeFree := by
  unfold anywherePhases
  simp only [List.mem_append]
  cases merge with
  | false => exact .inl (.inr (List.mem_singleton_self _))
  | true =>
    refine .inl (.inl (.inl (.inl ?_)))
    rw [if_pos (hmerge rfl)]
    simp

theorem eachBag_mem {slotBegin slotEnd : ℕ} {bags : List ℕ} {beforeFree : List Phase}
    (hfamily : nonSpecialized = false → proto.bagFamily ≠ 0) {ph : Phase}
    (hph : ph ∈ inv.eachBag env bags bag slot proto none merge nonSpecialized) :
    ph ∈ inv.anywherePhases env slotBegin slotEnd bags bag slot proto none beforeFree := by
  unfold anywherePhases
  simp only [List.mem_append]
  cases merge with
  | false =>
    cases nonSpecialized with
    | false =>
      refine .inl (.inl (.inl (.inr ?_)))
      rw [if_pos (hfamily rfl)]
      exact hph
    | true => exact .inr hph
  | true =>
    refine .inl (.inl (.inl (.inl ?_)))
    rw [if_pos (hmerge rfl)]
    cases nonSpecialized with
    | false =>
      rw [if_pos (hfamily rfl)]
      simp [hph]
    | true => simp [hph]

theorem inBagPhase_mem :
    inv.inBagPhase env inventorySlotItemStart inventorySlotItemEnd bag slot proto none merge ∈
      inv.inBagPhases env inventorySlotItemStart inventorySlotItemEnd bag slot proto none := by
  unfold inBagPhases
  cases merge with
  | false => simp
  | true => simp [hmerge rfl]

end

theorem nullBag_not_mem_positions (j : ℕ) : (nullBag, j) ∉ positions := by
  simp [positions, nullBag, inventorySlotBag0, bagSlots, bankBagSlots]

theorem nullSlot_not_mem_positions (i : ℕ) : (i, nullSlot) ∉ positions := by
  simp [positions, nullSlot, bankSlotBagEnd, maxBagSize]

/-- A slot with room is gone to by some phase, if it is one of those that are searched. -/
theorem visits_of_room (hp : p ∈ inv.searchedSlots env bag slot proto)
    (hroom : inv.room env proto p ≠ 0) :
    ∃ ph ∈ inv.canStorePhases env bag slot proto false none, ph.Visits p := by
  obtain ⟨merge, hmerge, hspace⟩ := space_of_room hroom
  obtain ⟨hpos, hp⟩ := mem_filter.1 hp
  have hnull : ∀ {j}, (bag, j) ∈ positions → bag ≠ nullBag := by
    rintro j h rfl
    exact nullBag_not_mem_positions j h
  obtain ⟨i, j⟩ := p
  -- the requested slot, and the slots of the requested bag
  have hslot : (i, j) = (bag, slot) →
      ∃ ph ∈ inv.canStorePhases env bag slot proto false none, ph.Visits (i, j) := by
    intro h
    rw [h] at hpos ⊢
    have hne : bag ≠ nullBag ∧ slot ≠ nullSlot :=
      ⟨hnull hpos, fun h => nullSlot_not_mem_positions bag (h ▸ hpos)⟩
    refine ⟨.required (inv.canStoreItemInSpecificSlot env bag slot proto false none), ?_, ?_⟩
    · unfold canStorePhases
      rw [if_pos hne]
      simp
    · intro pl pl' hrun _
      obtain ⟨-, s, rfl⟩ := inSpecificSlot_push hrun
      exact pl.mem_places_push _ s
  have hbag : i = bag → inv.inBag env proto (i, j) = true → j ≠ slot →
      ∃ ph ∈ inv.canStorePhases env bag slot proto false none, ph.Visits (i, j) := by
    rintro rfl hin hne
    refine ⟨_, ?_, visits_inBagPhase hin hne hspace⟩
    unfold canStorePhases
    rw [if_pos (hnull hpos)]
    exact List.mem_append_left _ (List.mem_append_right _ (inBagPhase_mem hmerge))
  rcases hp with h | ⟨hi, hin, hne⟩ | ⟨hstore, hskip⟩
  · exact hslot h
  · exact hbag hi hin hne
  obtain ⟨-, ⟨hi, h1, h2⟩ | ⟨hi, hin⟩⟩ := mem_filter.1 hstore
  · have hi' : i = inventorySlotBag0 := hi
    subst hi'
    by_cases hreq : bag = inventorySlotBag0 ∧ j = slot
    · exact hslot (by rw [hreq.1, hreq.2])
    · exact ⟨_, List.mem_append_right _ (slotsPhase_mem hmerge),
        visits_slotsPhase h1 h2 hreq hspace⟩
  · have hi0 : i ≠ inventorySlotBag0 := by
      rintro rfl
      exact absurd (show inventorySlotBag0 ∈ bagSlots from hi) (by decide)
    have hne : j ≠ slot := hskip.resolve_left hi0
    by_cases hib : i = bag
    · exact hbag hib hin hne
    · obtain ⟨bagProto, hgo, ph, hph, hvis⟩ := visits_eachBag hi hib hin hne hspace
      refine ⟨ph, List.mem_append_right _ (eachBag_mem hmerge (fun h => ?_) hph), hvis⟩
      refine bagFamily_ne_zero hgo fun hkind => ?_
      simp [hkind] at h

/-! ## Refusals -/

/-- What `CanStoreItem_InSpecificSlot` and `CanStoreItem_InBag` refuse with. -/
def IsRefusal (res : InventoryResult) : Prop :=
  res ≠ .ok ∧ res ≠ .invFull

theorem inSpecificSlot_refusal
    (h : inv.canStoreItemInSpecificSlot env bag slot proto false none pl = .error res) :
    IsRefusal res := by
  refine ⟨?_, ?_⟩
  · rintro rfl
    exact inSpecificSlot_ne_error_ok _ _ _ _ h
  rintro rfl
  unfold canStoreItemInSpecificSlot at h
  simp only [any_none, Bool.false_and, Bool.false_eq_true, if_false, otherItem_none] at h
  cases hp : inv.getItemByPos env (bag, slot) with
  | none =>
    rw [hp] at h
    simp only at h
    split at h
    · split at h <;> cases h
    · split at h
      · cases h
      · split_ifs at h <;> cases h
  | some it =>
    rw [hp] at h
    simp only at h
    split at h
    · cases h
    · unfold Item.canBeMergedPartlyWith at h
      split_ifs at h <;> cases h

theorem inBagTwice_refusal (h : inv.inBagTwice env bag slot proto none merge pl = .error res) :
    IsRefusal res := by
  refine ⟨?_, ?_⟩
  · rintro rfl
    exact inBagTwice_ne_error_ok _ _ _ _ h
  rintro rfl
  unfold inBagTwice at h
  split at h
  · cases h
  unfold canStoreItemInBag at h
  split at h
  · cases h
  split at h
  · cases h
  split at h
  · cases h
  split at h
  · cases h
  split at h
  · cases h
  split at h
  · cases h
  split at h <;> cases h

/-- A phase that stops a search refuses the requested slot or bag. -/
theorem stops_refusal :
    ∀ ph ∈ inv.canStorePhases env bag slot proto false none, ph.Stops res → IsRefusal res := by
  refine forall_canStorePhases (fun _ _ => ?_) (fun _ merge _ => ?_) (fun merge _ => ?_)
    (fun merge nonSpecialized _ ph hph => ?_) ?_
  · exact fun ⟨pl, hrun⟩ => inSpecificSlot_refusal hrun
  · unfold inBagPhase
    split_ifs
    · exact fun ⟨pl, hrun⟩ => nomatch hrun
    · exact fun ⟨pl, hrun⟩ => inBagTwice_refusal hrun
  · exact fun ⟨pl, hrun⟩ => nomatch hrun
  · obtain ⟨i, -, rfl⟩ := List.mem_map.1 hph
    exact fun h => h.elim
  · exact fun h => Bool.noConfusion h.1

/-! ## The units a search has no place for -/

/-- A search is refused for the requested slot or bag, or it places all units, or it fills all the
slots it goes to. -/
theorem search_room (hpos : bag ≠ nullBag → ∀ {c it}, inv.cells c = some it → 1 ≤ it.count)
    (htotal : total ≠ 0) (noSimilar : ℕ) :
    (∃ res, (search .invFull noSimilar (inv.canStorePhases env bag slot proto false none)
      ⟨[], total⟩).res = res ∧ IsRefusal res ∧
        ∃ ph ∈ inv.canStorePhases env bag slot proto false none, ph.Stops res) ∨
    (total ≤ ∑ p ∈ inv.searchedSlots env bag slot proto, inv.room env proto p ∧
      ∃ dest : List (Pos × ℕ), (dest.map Prod.snd).sum = total ∧
        search .invFull noSimilar (inv.canStorePhases env bag slot proto false none) ⟨[], total⟩ =
          if noSimilar = 0 then ⟨.ok, dest, none⟩ else ⟨.itemMaxCount, dest, some noSimilar⟩) ∨
    (∑ p ∈ inv.searchedSlots env bag slot proto, inv.room env proto p < total ∧
      ∃ dest : List (Pos × ℕ), (dest.map Prod.snd).sum =
          ∑ p ∈ inv.searchedSlots env bag slot proto, inv.room env proto p ∧
        search .invFull noSimilar (inv.canStorePhases env bag slot proto false none) ⟨[], total⟩ =
          ⟨.invFull, dest, some (toU32 ((total -
            ∑ p ∈ inv.searchedSlots env bag slot proto, inv.room env proto p : ℕ) + noSimilar))⟩)
    := by
  have hnil : Filling env inv proto bag slot total ⟨[], total⟩ := Plan.filled_nil _ _ total
  rcases search_cases .invFull noSimilar (keeps_filling hpos) grows_canStorePhases hnil htotal with
    ⟨ph, hph, hstop⟩ | ⟨pl, hpl, hzero, heq⟩ | ⟨pl, hpl, hc, -, hvis, heq⟩
  · exact .inl ⟨_, rfl, stops_refusal ph hph hstop, ph, hph, hstop⟩
  · have hsum := hpl.sum
    have hle := hpl.placed_le
    exact .inr (.inl ⟨by omega, pl.dest, by omega, heq⟩)
  · have hplaced := hpl.placed_eq hc fun p hp hroom => by
      obtain ⟨ph, hph, hvisit⟩ := visits_of_room hp hroom
      exact hvis ph hph p hvisit
    have hsum := hpl.sum
    refine .inr (.inr ⟨by omega, pl.dest, hplaced, ?_⟩)
    have hcount : pl.count =
        total - ∑ p ∈ inv.searchedSlots env bag slot proto, inv.room env proto p := by omega
    rw [heq, hcount]

/-- `CanStoreItem` with the limits passed is the search of its phases. -/
theorem canStoreItem_of_similar (bag slot : ℕ)
    (hsim : (inv.canTakeMoreSimilarItems env entry count none).1 = .ok) :
    ∃ proto, env.template entry = some proto ∧
      inv.canStoreItem env bag slot entry count none false =
        search .invFull (inv.canTakeMoreSimilarItems env entry count none).2
          (inv.canStorePhases env bag slot proto false none) ⟨[], count⟩ := by
  cases hproto : env.template entry with
  | none =>
    rw [canTakeMoreSimilarItems, hproto] at hsim
    cases hsim
  | some proto =>
    refine ⟨proto, rfl, ?_⟩
    simp only [canStoreItem, hproto, any_none, Bool.false_eq_true, if_false, hsim, ne_eq,
      not_true_eq_false, false_and, if_true]

/-- A request that is not refused for the requested slot or bag itself is refused for lack of space
when the slots that are searched have no room for the units. -/
theorem canStoreItem_full_iff (hpos : ∀ {c it}, inv.cells c = some it → 1 ≤ it.count)
    (hsim : (inv.canTakeMoreSimilarItems env entry count none).1 = .ok)
    (hreq : (inv.canStoreItem env bag slot entry count none false).res = .ok ∨
      (inv.canStoreItem env bag slot entry count none false).res = .invFull) :
    (inv.canStoreItem env bag slot entry count none false).res = .invFull ↔
      inv.searchedRoom env bag slot entry < count := by
  obtain ⟨proto, hproto, heq⟩ := canStoreItem_of_similar bag slot hsim
  rw [heq] at hreq ⊢
  generalize (inv.canTakeMoreSimilarItems env entry count none).2 = noSimilar at hreq ⊢
  have hroom : inv.searchedRoom env bag slot entry =
      ∑ p ∈ inv.searchedSlots env bag slot proto, inv.room env proto p := by
    rw [searchedRoom, hproto]
  rcases eq_zero_or_pos count with rfl | hcount
  · have hfree : false = true → proto.stackable ≠ 1 := fun h => Bool.noConfusion h
    have hne : (search .invFull noSimilar (inv.canStorePhases env bag slot proto false none)
        ⟨[], 0⟩).res ≠ .invFull := by
      refine search_none_left (weighs_canStorePhases env inv bag slot proto false none)
        (fun ph hph hstop => (stops_refusal ph hph hstop).2 rfl) ⟨by decide, by decide⟩
        (List.mem_append_right _ (slotsPhase_mem hfree)) rfl
    exact ⟨fun h => absurd h hne, fun h => absurd h (Nat.not_lt_zero _)⟩
  rcases search_room (fun _ => hpos) (Nat.pos_iff_ne_zero.1 hcount) noSimilar with
    ⟨res, hres, hrefuse, -⟩ | ⟨hle, dest, -, hsearch⟩ | ⟨hlt, dest, -, hsearch⟩
  · rw [hres] at hreq
    exact absurd hreq (not_or.2 hrefuse)
  · rw [hsearch, hroom]
    constructor
    · intro h
      split_ifs at h
    · intro h
      omega
  · rw [hsearch, hroom]
    exact ⟨fun _ => hlt, fun _ => rfl⟩

/-- A request is refused for lack of space without need exactly when the inventory has room for the
units and the slots that are searched have not. -/
theorem refused_without_room_iff (hpos : ∀ {c it}, inv.cells c = some it → 1 ≤ it.count)
    {entry count : ℕ} (hsim : (inv.canTakeMoreSimilarItems env entry count none).1 = .ok)
    (hreq : (inv.canStoreItem env bag slot entry count none false).res = .ok ∨
      (inv.canStoreItem env bag slot entry count none false).res = .invFull) :
    ((inv.canStoreItem env bag slot entry count none false).res = .invFull →
      inv.storeRoom env entry < count) ↔
    count ≤ inv.searchedRoom env bag slot entry ∨ inv.storeRoom env entry < count := by
  rw [canStoreItem_full_iff hpos hsim hreq, ← not_lt]
  exact imp_iff_not_or

/-- A full backpack and two bags. The first is full but for one unit at its first slot, in the
second only the first slot is free. -/
def fullBags : Inventory :=
  .ofList 1 30 (
    (List.range' 23 16).map (fun j => (.slot j, { guid := j - 22, entry := 25, count := 1 })) ++
    [(.slot 19, { guid := 17, entry := 828, count := 1 }),
      (.slot 20, { guid := 18, entry := 828, count := 1 }),
      (.bagSlot 17 0, { guid := 19, entry := 117, count := 19 })] ++
    (List.range' 1 5).map (fun j => (.bagSlot 17 j, { guid := 19 + j, entry := 25, count := 1 })) ++
    (List.range' 1 5).map fun j => (.bagSlot 18 j, { guid := 24 + j, entry := 25, count := 1 }))

theorem fullBags_wf : fullBags.WF smallEnv :=
  wf_ofList (by decide) (by decide) (by decide) (by decide)

theorem one_le_count_fullBags {c : Cell} {it : Item} (h : fullBags.cells c = some it) :
    1 ≤ it.count := by
  obtain ⟨proto, -, hone, -⟩ := fullBags_wf.stack h
  exact hone

/-- The room of one slot. -/
theorem room_le_storeRoom (hproto : env.template entry = some proto)
    (hp : p ∈ inv.storeSlots env proto) : inv.room env proto p ≤ inv.storeRoom env entry := by
  rw [storeRoom, hproto]
  exact single_le_sum (fun _ _ => Nat.zero_le _) hp

/-- Two units for the first slot of the first bag. -/
theorem refused_without_room_iff_fullBags :
    ((fullBags.canStoreItem smallEnv 19 0 117 2 none false).res = .invFull →
      fullBags.storeRoom smallEnv 117 < 2) ↔
    2 ≤ fullBags.searchedRoom smallEnv 19 0 117 ∨ fullBags.storeRoom smallEnv 117 < 2 :=
  refused_without_room_iff one_le_count_fullBags (by decide +kernel) (.inr (by decide +kernel))

/-- They are refused for lack of space, though the free slot of the second bag takes a stack. -/
theorem refused_fullBags :
    (fullBags.canTakeMoreSimilarItems smallEnv 117 2 none).1 = .ok ∧
      (fullBags.canStoreItem smallEnv 19 0 117 2 none false).res = .invFull ∧
      2 ≤ fullBags.storeRoom smallEnv 117 := by
  refine ⟨by decide +kernel, by decide +kernel, ?_⟩
  have hslot : ((20, 0) : Pos) ∈ fullBags.storeSlots smallEnv { itemId := 117, stackable := 20 } :=
    mem_filter.2 ⟨mem_positions_bag (by decide) (by decide), .inr ⟨by decide, by decide +kernel⟩⟩
  have hroom : fullBags.room smallEnv { itemId := 117, stackable := 20 } (20, 0) = 20 := by
    decide +kernel
  have hproto : smallEnv.template 117 = some { itemId := 117, stackable := 20 } := rfl
  have hle := room_le_storeRoom hproto hslot
  omega

/-! ## The number of units without a place -/

variable (env inv)

/-- `Player::CanStoreNewItem`. -/
def canStoreNewItem (bag slot entry count : ℕ) : StoreResult :=
  inv.canStoreItem env bag slot entry count none false

/-- The limit that `count` more units exceed is one that the player is over already : the limit of
the entry itself, or else the one of its category. -/
def OverLimit (entry count : ℕ) : Prop :=
  match env.template entry with
  | none => False
  | some proto =>
    let held := inv.getItemCount env proto.itemId none
    let heldOfCategory := inv.getItemCountWithLimitCategory env proto.itemLimitCategory none
    if proto.maxCount = 2147483647 then False
    else if 0 < proto.maxCount ∧ proto.maxCount.toNat < toU32 (held + count) then
      proto.maxCount.toNat < held ∧ held + count < 2 ^ 32
    else
      match if proto.itemLimitCategory = 0 then none
        else env.limitCategory proto.itemLimitCategory with
      | none => False
      | some limit =>
        limit.modeHave ∧ limit.maxCount < heldOfCategory ∧ heldOfCategory + count < 2 ^ 32

theorem getItemCount_lt (item : ℕ) (skipItem : Option Item) :
    inv.getItemCount env item skipItem < 2 ^ 32 :=
  toU32_lt _

theorem getItemCountWithLimitCategory_lt (category : ℕ) (skipItem : Option Item) :
    inv.getItemCountWithLimitCategory env category skipItem < 2 ^ 32 :=
  toU32_lt _

variable {env inv}

/-- The units over a limit, with what is held already. -/
theorem lt_over_iff {held limit : ℕ} (hheld : held < 2 ^ 32) (hlt : count < 2 ^ 32)
    (hover : limit < toU32 (held + count)) :
    count < toU32 (count + held - limit) ↔ limit < held ∧ held + count < 2 ^ 32 := by
  unfold toU32 at *
  omega

/-- More units than asked for are refused exactly over the limit. -/
theorem lt_noSimilar_iff (hlt : count < 2 ^ 32) :
    count < (inv.canTakeMoreSimilarItems env entry count none).2 ↔
      inv.OverLimit env entry count := by
  unfold canTakeMoreSimilarItems OverLimit
  cases env.template entry with
  | none => exact ⟨fun h => absurd h (lt_irrefl _), False.elim⟩
  | some proto =>
    have hheld := getItemCount_lt env inv proto.itemId none
    have hheldCat := getItemCountWithLimitCategory_lt env inv proto.itemLimitCategory none
    simp only [any_none, Bool.false_eq_true, if_false]
    generalize inv.getItemCount env proto.itemId none = held at hheld ⊢
    generalize inv.getItemCountWithLimitCategory env proto.itemLimitCategory none = heldOfCategory
      at hheldCat ⊢
    have hzero : ¬count < 0 := Nat.not_lt_zero _
    by_cases hmax : proto.maxCount = 2147483647
    · rw [if_pos (.inr hmax), if_pos hmax]
      exact iff_of_false hzero id
    rw [if_neg hmax]
    by_cases hitem : 0 < proto.maxCount ∧ proto.maxCount.toNat < toU32 (held + count)
    · have hnone : ¬((proto.maxCount ≤ 0 ∧ proto.itemLimitCategory = 0) ∨
          proto.maxCount = 2147483647) := by omega
      have hcast : (proto.maxCount.toNat : ℤ) = proto.maxCount := Int.toNat_of_nonneg hitem.1.le
      rw [if_neg hnone, if_pos hitem, if_pos hitem, ← lt_over_iff hheld hlt hitem.2, hcast]
    rw [if_neg hitem]
    by_cases hcat : proto.itemLimitCategory = 0
    · rw [if_neg hitem, if_pos hcat, if_pos hcat]
      refine iff_of_false ?_ id
      split_ifs <;> exact hzero
    · have hnone : ¬((proto.maxCount ≤ 0 ∧ proto.itemLimitCategory = 0) ∨
          proto.maxCount = 2147483647) := by omega
      rw [if_neg hnone, if_neg hitem, if_neg hcat, if_neg hcat]
      cases env.limitCategory proto.itemLimitCategory with
      | none => exact iff_of_false (lt_irrefl _) id
      | some limit =>
        simp only
        by_cases hover : limit.modeHave ∧ limit.maxCount < toU32 (heldOfCategory + count)
        · rw [if_pos hover, lt_over_iff hheldCat hlt hover.2]
          exact (and_iff_right hover.1).symm
        · rw [if_neg hover]
          refine iff_of_false hzero fun h => hover ⟨h.1, ?_⟩
          have hsum : toU32 ((heldOfCategory + count : ℕ) : ℤ) = heldOfCategory + count :=
            toU32_of_lt h.2.2
          push_cast at hsum
          omega

theorem noSimilar_of_ok {item : Option Item}
    (h : (inv.canTakeMoreSimilarItems env entry count item).1 = .ok) :
    (inv.canTakeMoreSimilarItems env entry count item).2 = 0 := by
  unfold canTakeMoreSimilarItems at h ⊢
  split at h
  · cases h
  dsimp only at h ⊢
  split_ifs at h ⊢ <;> first | rfl | skip
  split at h
  · cases h
  · split_ifs at h ⊢
    rfl

/-- A search for any place goes to all the slots there are. -/
theorem searchedSlots_null (proto : ItemTemplate) :
    inv.searchedSlots env nullBag nullSlot proto = inv.storeSlots env proto := by
  ext p
  obtain ⟨i, j⟩ := p
  simp only [searchedSlots, mem_filter]
  constructor
  · rintro ⟨hpos, h | ⟨hi, -, -⟩ | ⟨h, -⟩⟩
    · rw [h] at hpos
      exact absurd hpos (nullBag_not_mem_positions _)
    · have hi' : i = nullBag := hi
      rw [hi'] at hpos
      exact absurd hpos (nullBag_not_mem_positions _)
    · exact h
  · intro h
    have hpos := (mem_filter.1 h).1
    refine ⟨hpos, .inr (.inr ⟨h, .inr ?_⟩)⟩
    rintro rfl
    exact nullSlot_not_mem_positions _ hpos

/-- A search for any place is not stopped. -/
theorem not_stops_null (res : InventoryResult) :
    ∀ ph ∈ inv.canStorePhases env nullBag slot proto false none, ¬ph.Stops res := by
  refine forall_canStorePhases (fun h => absurd rfl h) (fun h => absurd rfl h) (fun merge _ => ?_)
    (fun merge nonSpecialized _ ph hph => ?_) ?_
  · exact fun ⟨pl, hrun⟩ => nomatch hrun
  · obtain ⟨i, -, rfl⟩ := List.mem_map.1 hph
    exact id
  · exact fun h => Bool.noConfusion h.1

/-- The numbers of a search for `total` units, of which `noSimilar` are refused from the start, with
`free` units of room. -/
theorem accounts_iff {noSimilar : ℕ} (free : ℕ) (hlt : count < 2 ^ 32) (hns : noSimilar < 2 ^ 32)
    (htotal : total = toU32 (count - noSimilar)) :
    (total ≤ free → (noSimilar ≤ count ∧ total + noSimilar = count ↔
      ¬count < noSimilar ∨ free ≤ count)) ∧
    (free < total → (toU32 ((total - free : ℕ) + noSimilar) ≤ count ∧
      free + toU32 ((total - free : ℕ) + noSimilar) = count ↔
        ¬count < noSimilar ∨ free ≤ count)) := by
  unfold toU32 at *
  omega

/-- `CanStoreNewItem` for any place gives as many units as it has places for, and says how many
it has none for, exactly when the limit that is exceeded is not exceeded already, or when there is
no room for more than the units asked for. -/
theorem canStoreNewItem_accounts_iff {entry count : ℕ} (hpos : 1 ≤ count) (hlt : count < 2 ^ 32) :
    let r := inv.canStoreNewItem env nullBag nullSlot entry count
    (r.noSpace.getD 0 ≤ count ∧ (r.dest.map Prod.snd).sum + r.noSpace.getD 0 = count) ↔
      ¬inv.OverLimit env entry count ∨ inv.storeRoom env entry ≤ count := by
  have hns : (inv.canTakeMoreSimilarItems env entry count none).2 < 2 ^ 32 :=
    canTakeMoreSimilarItems_lt hlt none
  rw [← lt_noSimilar_iff hlt, canStoreNewItem, canStoreItem]
  cases hproto : env.template entry with
  | none =>
    have hsim : (inv.canTakeMoreSimilarItems env entry count none).2 = count := by
      rw [canTakeMoreSimilarItems, hproto]
    rw [hsim]
    exact iff_of_true ⟨le_refl _, zero_add _⟩ (.inl (lt_irrefl _))
  | some proto =>
    have hfree : inv.storeRoom env entry =
        ∑ p ∈ inv.searchedSlots env nullBag nullSlot proto, inv.room env proto p := by
      rw [storeRoom, hproto, searchedSlots_null]
    have hzero : (inv.canTakeMoreSimilarItems env entry count none).1 = .ok →
        (inv.canTakeMoreSimilarItems env entry count none).2 = 0 := noSimilar_of_ok
    rw [hfree]
    generalize inv.canTakeMoreSimilarItems env entry count none = sim at hns hzero ⊢
    obtain ⟨res, noSimilar⟩ := sim
    simp only [any_none, Bool.false_eq_true, if_false] at hns hzero ⊢
    by_cases hres : res ≠ .ok ∧ count = noSimilar
    · rw [if_pos hres, ← hres.2]
      exact iff_of_true ⟨le_refl _, zero_add _⟩ (.inl (lt_irrefl _))
    rw [if_neg hres]
    -- the units that are searched for
    obtain ⟨total, htotal, hcount, hne⟩ : ∃ total, total = toU32 (count - noSimilar) ∧
        (if res = .ok then count else toU32 (count - noSimilar)) = total ∧ total ≠ 0 := by
      refine ⟨_, rfl, ?_, ?_⟩
      · split_ifs with hok
        · rw [hzero hok, Nat.cast_zero, sub_zero, toU32_of_lt hlt]
        · rfl
      · by_cases hok : res = .ok
        · rw [hzero hok, Nat.cast_zero, sub_zero, toU32_of_lt hlt]
          omega
        · have hcne : count ≠ noSimilar := fun h => hres ⟨hok, h⟩
          unfold toU32
          omega
    rw [hcount]
    generalize hsum : ∑ p ∈ inv.searchedSlots env nullBag nullSlot proto, inv.room env proto p =
      free
    obtain ⟨hall, hsome⟩ := accounts_iff free hlt hns htotal
    rcases search_room (fun h => absurd rfl h) hne noSimilar with
      ⟨res, -, -, ph, hph, hstop⟩ | ⟨hle, dest, hdest, heq⟩ | ⟨hlt', dest, hdest, heq⟩
    · exact absurd hstop (not_stops_null res ph hph)
    · rw [hsum] at hle
      have hnoSpace : (if noSimilar = 0 then (⟨.ok, dest, none⟩ : StoreResult)
          else ⟨.itemMaxCount, dest, some noSimilar⟩).noSpace.getD 0 = noSimilar := by
        split_ifs with h
        · exact h.symm
        · rfl
      have hdest' : (if noSimilar = 0 then (⟨.ok, dest, none⟩ : StoreResult)
          else ⟨.itemMaxCount, dest, some noSimilar⟩).dest = dest := by
        split_ifs <;> rfl
      rw [heq, hnoSpace, hdest', hdest]
      exact hall hle
    · rw [hsum] at hlt' hdest heq
      have hnumber := hsome hlt'
      rw [heq]
      rw [getD_some, hdest]
      exact hnumber

theorem stackOfTwenty_lt : (20 : ℤ) < 2 ^ 31 := by
  decide

/-- The templates of the small environment, with entry 117 limited to 5 units. -/
def limitedEnv : ItemEnv where
  template i :=
    if i = 117 then
      some { itemId := 117, stackable := 20, maxCount := 5, stackable_lt := stackOfTwenty_lt }
    else smallEnv.template i
  template_id := by
    intro i proto h
    split_ifs at h with hi
    · cases h
      exact hi.symm
    · exact smallEnv.template_id h

theorem canStoreNewItem_accounts_iff_limited :
    let r := smallInventory.canStoreNewItem limitedEnv nullBag nullSlot 117 3
    (r.noSpace.getD 0 ≤ 3 ∧ (r.dest.map Prod.snd).sum + r.noSpace.getD 0 = 3) ↔
      ¬smallInventory.OverLimit limitedEnv 117 3 ∨ smallInventory.storeRoom limitedEnv 117 ≤ 3 :=
  canStoreNewItem_accounts_iff (by decide) (by decide)

/-- With 23 units of an entry limited to 5, places are given for more than the three units asked
for. -/
theorem not_accounts_limited :
    let r := smallInventory.canStoreNewItem limitedEnv nullBag nullSlot 117 3
    ¬(r.noSpace.getD 0 ≤ 3 ∧ (r.dest.map Prod.snd).sum + r.noSpace.getD 0 = 3) := by
  have hnoSpace :
      (smallInventory.canStoreNewItem limitedEnv nullBag nullSlot 117 3).noSpace.getD 0 =
        4294967022 := by
    decide +kernel
  intro r h
  exact absurd (hnoSpace.symm.trans_le h.1) (by decide)

end Inventory

end MistyWorld
