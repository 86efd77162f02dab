import MistyWorld.GuildBankItems
import MistyWorld.GuildBankLimit

/-!
# Guild bank moves keep the items

A move takes the item, or the part that is split off, out of its source and stores it at the
destination. A swap takes both items out before it stores them. Every removal puts units aside and
every store brings them back, so that a call keeps the units of every entry (`guildBank_moves`).

That is so as long as no item that comes to the player completes a tracking quest : its reward
changes the inventory after the room was found in it (`guildBank_moves_tracked`).
-/

open Option Function Word FirstFit Finset

namespace MistyWorld

namespace GuildBank

open Inventory

variable {env : ItemEnv} {b b' : GuildBank} {mover : Mover} {it new : Item} {p : Pos} {n : ℕ}

/-! ## The two ends of a move -/

variable {src dest : MoveItemData} {srcItem destItem : Item} {vec : List (Pos × ℕ)}

/-- The item is at this end, and is no filled bag. -/
def Holds (env : ItemEnv) (b : GuildBank) (it : Item) : MoveItemData → Prop
  | .bank tabId slotId => b.tabs (tabId, slotId) = some it
  | .player bag slot =>
    b.inv.getItemByPos env (bag, slot) = some it ∧ b.inv.isNotEmptyBag env it = false

theorem WF.holds_of_initItem (hw : b.WF env) (h : b.initItem env mover src = some it) :
    Holds env b it src := by
  cases src with
  | bank tabId slotId =>
    rw [initItem, hw.getItem_eq] at h
    exact h
  | player bag slot =>
    obtain ⟨hget, hfilter⟩ := filter_eq_some_iff.1 h
    simp only [Bool.and_eq_true, Bool.not_eq_true'] at hfilter
    exact ⟨hget, hfilter.1⟩

theorem Holds.stack (h : Holds env b it src) (hw : b.WF env) : env.StackOk it := by
  cases src with
  | bank tabId slotId => exact (hw.outside h).stack
  | player bag slot => exact hw.inv.stack_pos h.1

/-- What is at an end is not aside. -/
theorem Holds.guid_ne (h : Holds env b it src) {it' : Item} (ha : Aside env b it') :
    it.guid ≠ it'.guid := by
  cases src with
  | bank tabId slotId => exact ha.absent h
  | player bag slot =>
    have hcell := h.1
    rw [(usable_of_getItemByPos h.1).getItemByPos_eq] at hcell
    exact ha.away.absent hcell

theorem removeItem_whole (mover : Mover) (hw : b.WF env) (h : Holds env b it src) (other : MoveItemData) :
    TakenOut env b it it.count (b.removeItem env mover it other 0 src) ∧
      Aside env (b.removeItem env mover it other 0 src) it := by
  cases src with
  | bank tabId slotId =>
    have htake : b.takeFromTab it 0 (tabId, slotId) = b.put (tabId, slotId) none := by
      exact setItem_of_inRange (hw.inRange h) none
    obtain ⟨htaken, haside⟩ := hw.takeOut_tab h
    simp only [removeItem, htake]
    refine ⟨htaken.charge mover other tabId, ?_⟩
    obtain ⟨g, -, heq⟩ := chargeTab_eq (b.put (tabId, slotId) none) mover other tabId
    rw [heq]
    exact ⟨haside.toOutside, haside.absent⟩
  | player bag slot =>
    have htake : b.takeFromInventory env it 0 (bag, slot) = b.inv.removeItem env (bag, slot) := by
      simp [takeFromInventory]
    obtain ⟨htaken, haside⟩ := hw.takeOut_inventory h.1 h.2
    exact ⟨htaken.withBook _, haside.toOutside, haside.absent⟩

theorem removeItem_part (mover : Mover) (hw : b.WF env) (h : Holds env b it src) (other : MoveItemData)
    (hn : n ≠ 0) (hlt : n < it.count) :
    TakenOut env b it n (b.removeItem env mover it other n src) := by
  cases src with
  | bank tabId slotId =>
    simp only [removeItem, takeFromTab, if_pos hn]
    exact (hw.takePart_tab h hlt).charge mover other tabId
  | player bag slot =>
    simp only [removeItem, takeFromInventory, if_pos hn]
    exact (hw.takePart_inventory h.1 hlt).withBook _

theorem removeItem_bank_inv (other : MoveItemData) (n tabId slotId : ℕ) :
    (b.removeItem env mover it other n (.bank tabId slotId)).inv = b.inv := by
  obtain ⟨g, -, heq⟩ :=
    chargeTab_eq (b.takeFromTab it n (tabId, slotId)) mover other tabId
  rw [removeItem, heq]
  unfold takeFromTab setItem
  split_ifs <;> rfl

theorem removeItem_bank_book (other : MoveItemData) (n tabId slotId : ℕ) :
    (b.removeItem env mover it other n (.bank tabId slotId)).book = b.book := by
  obtain ⟨g, -, heq⟩ :=
    chargeTab_eq (b.takeFromTab it n (tabId, slotId)) mover other tabId
  rw [removeItem, heq]
  unfold takeFromTab setItem
  split_ifs <;> rfl

theorem removeItem_bank_tabs (h : b.InRange p) (other : MoveItemData) :
    (b.removeItem env mover it other 0 (.bank p.1 p.2)).tabs = update b.tabs p none := by
  obtain ⟨g, -, heq⟩ := chargeTab_eq (b.takeFromTab it 0 p) mover other p.1
  have htake : b.takeFromTab it 0 p = b.put p none := by
    exact setItem_of_inRange h none
  rw [removeItem, heq, htake]
  rfl

/-! ## Storing at an end -/

theorem dest_ne_nil {fits : Pos → ℕ → Prop} (hstack : env.StackOk it)
    (h : Plan.Exact fits it.count ⟨vec, 0⟩) : vec ≠ [] := by
  obtain ⟨-, -, hone, -⟩ := hstack
  rintro rfl
  have hsum := h.sum
  simp at hsum
  omega

theorem storeItems_stored (hw : b.WF env) (ha : Aside env b it) (hne : vec ≠ [])
    (hnodup : (vec.map Prod.fst).Nodup) (hsum : (vec.map Prod.snd).sum = it.count)
    (ht : ∀ pn ∈ vec, TabTakes env b it pn.1 pn.2) : Stored env b it (storeItems env it vec b) := by
  obtain ⟨hw', htotal, hrange, haside, -⟩ := storeItems_spec vec hne hw ha hnodup ht
  exact ⟨hw', fun entry => by rw [htotal, hsum], hrange, haside⟩

/-- The stack goes to the slots that were found before it was taken out. -/
theorem storeItem_bank {tabId slotId : ℕ} (hto : TakenOut env b it n b')
    (ha : Aside env b' srcItem) (hslot : slotId < guildBankMaxSlots ∨ slotId = nullSlot)
    (hcan : b.canStoreInTab env srcItem tabId slotId false = .ok vec) :
    Stored env b' srcItem (b'.storeItem env mover srcItem vec (.bank tabId slotId)) := by
  have hplan := canStoreInTab_exact ha.stack hslot hcan
  refine storeItems_stored hto.wf ha (dest_ne_nil ha.stack hplan) hplan.nodup hplan.sum
    fun pn hpn => ?_
  refine (hplan.fits pn hpn).takes ha.stack hto.inRange fun d hd => ?_
  exact ⟨by simp, ha.absent hd, hto.below _ d hd⟩

theorem storeItem_player_tabs (mover : Mover) (bag slot : ℕ) :
    (b.storeItem env mover it vec (.player bag slot)).tabs = b.tabs := by
  change (b.itemAddedQuestCheck mover it).tabs = b.tabs
  unfold itemAddedQuestCheck
  split <;> rfl

/-- The stack goes to the positions that were found before the swapped item was taken out. -/
theorem storeItem_player {inv : Inventory} {bag slot : ℕ} {swap : Bool} (hw : b.WF env)
    (ha : Aside env b it) (hinv : inv.WF env) (hout : Inventory.Outside env inv it)
    (heq : b.inv = inv.taken env none (if swap then some (bag, slot) else none))
    (hcan : (inv.canStoreItem env bag slot it.entry it.count (some it) swap).res = .ok)
    (hcounts : (mover.counts b.book it).isSome = true) :
    Stored env b it (b.storeItem env mover it
      (inv.canStoreItem env bag slot it.entry it.count (some it) swap).dest (.player bag slot)) := by
  obtain ⟨book, hbook⟩ := isSome_iff_exists.1 hcounts
  obtain ⟨proto, hproto, hone, hle⟩ := hout.stack
  have hlt : it.count < 2 ^ 32 := by
    have hmax := proto.getMaxStackSize_lt
    omega
  have hswap : swap = true → ∀ proto', env.template it.entry = some proto' →
      it.count ≤ proto'.getMaxStackSize := by
    intro _ proto' hproto'
    rw [hproto] at hproto'
    cases hproto'
    exact hle
  obtain ⟨proto', hproto', hplan⟩ := canStoreItem_placed hone hlt hcan
  obtain ⟨it', -, hit', -, hland⟩ := storeSource_landed hinv (.outside it hout.loose)
    (fun s hs => by cases hs; rfl) hproto' hone hplan
    (fun s hs _ hb => by
      cases hs
      exact hout.away.absent (getBagByPos_eq_some hb).2.1 rfl)
    (fun w hww => canStoreItem_not_inBagAt hone hlt hswap hcan hww)
    fun hf => by
      rw [any_some, hout.empty] at hf
      cases hf
  obtain rfl := hit' it rfl
  rw [← heq] at hland
  simp only [storeSource] at hland
  simp only [storeItem, itemAddedQuestCheck, hbook]
  have hstored : Stored env b it' (b.withInv (Inventory.storeItem env it'
      (inv.canStoreItem env bag slot it'.entry it'.count (some it') swap).dest b.inv).2) := by
    refine ⟨hw.withInv hland.wf fun hq => ?_, fun entry => ?_, fun _ => Iff.rfl, fun x hx hne => ?_⟩
    · exact (hw.outside hq).away.storeItem (ha.absent hq).symm _
    · have htotal := hland.total entry
      rw [brought_of_empty ha.empty] at htotal
      simp only [GuildBank.withInv, allUnits, slots]
      omega
    · exact hx.withInv (hx.away.storeItem hne.symm _)
  exact hstored.withBook book

/-- What was taken out and stored again is all there. -/
theorem Stored.keeps {b1 b2 : GuildBank} (hto : TakenOut env b it srcItem.count b1)
    (hst : Stored env b1 srcItem b2) (hentry : srcItem.entry = it.entry) (entry : ℕ) :
    b2.allUnits env entry = b.allUnits env entry := by
  rw [hst.total, ← hto.total, hentry]

/-! ## Moves -/

/-- The ends that `SwapItems` and `SwapItemsWithInventory` give to a move : two slots of the bank,
or a slot of the bank and a position of the player. The slot of the bank may be left open. -/
inductive Ends : MoveItemData → MoveItemData → Prop
  | within {p q : Pos} (hne : p ≠ q) (hp : p.2 < guildBankMaxSlots) (hq : q.2 < guildBankMaxSlots) :
    Ends (.bank p.1 p.2) (.bank q.1 q.2)
  | toChar {tabId slotId : ℕ} (hslot : slotId < guildBankMaxSlots ∨ slotId = nullSlot)
    (bag slot : ℕ) : Ends (.bank tabId slotId) (.player bag slot)
  | fromChar {tabId slotId : ℕ} (hslot : slotId < guildBankMaxSlots ∨ slotId = nullSlot)
    (bag slot : ℕ) : Ends (.player bag slot) (.bank tabId slotId)

/-- What a call keeps : the units of every entry and the bounds of the stacks. -/
structure Kept (env : ItemEnv) (b : GuildBank) (r : MoveResult) : Prop where
  wf : r.bank.WF env
  total : ∀ entry, r.bank.allUnits env entry = b.allUnits env entry

theorem WF.kept (hw : b.WF env) : Kept env b { bank := b } :=
  ⟨hw, fun _ => rfl⟩

/-- A move without a swap : `srcItem` is `it` itself, or was split off it. -/
theorem doItemsMove_kept (hw : b.WF env) (hends : Ends src dest) (n : ℕ)
    (hto : TakenOut env b it srcItem.count (b.removeItem env mover it dest n src))
    (ha : Aside env (b.removeItem env mover it dest n src) srcItem)
    (hentry : srcItem.entry = it.entry)
    (hout : ∀ tabId slotId, src = .bank tabId slotId → Inventory.Outside env b.inv srcItem)
    (hcounts : ∀ bag slot, dest = .player bag slot →
      (b.canStore env srcItem false dest).isOk = true →
        (mover.counts b.book srcItem).isSome = true) :
    Kept env b (b.doItemsMove env mover src dest it srcItem none n) := by
  unfold doItemsMove
  cases hcan : b.canStore env srcItem (none : Option Item).isSome dest with
  | error res => exact hw.kept
  | ok vec =>
    have hst : Stored env (b.removeItem env mover it dest n src) srcItem
        ((b.removeItem env mover it dest n src).storeItem env mover srcItem vec dest) := by
      have hok : (b.canStore env srcItem false dest).isOk = true := congrArg Except.isOk hcan
      cases hends with
      | within hne hp hq => exact storeItem_bank hto ha (.inl hq) hcan
      | fromChar hslot bag slot => exact storeItem_bank hto ha hslot hcan
      | toChar hslot bag slot =>
        simp only [canStore, isSome_none] at hcan
        split_ifs at hcan with hres
        cases hcan
        refine storeItem_player hto.wf ha hw.inv (hout _ _ rfl) (removeItem_bank_inv _ _ _ _) hres ?_
        rw [removeItem_bank_book]
        exact hcounts bag slot rfl hok
    exact ⟨hst.wf, fun entry => hst.keeps hto hentry entry⟩

/-- An end is ready for a swap : its own item is out. -/
def SwapReady (env : ItemEnv) (b₀ b : GuildBank) (it : Item) : MoveItemData → Prop
  | .bank tabId slotId => b.tabs (tabId, slotId) = none ∧ ∀ q, b.InRange q ↔ b₀.InRange q
  | .player bag slot =>
    b.inv = b₀.inv.removeItem env (bag, slot) ∧ b₀.inv.WF env ∧ Inventory.Outside env b₀.inv it

theorem storeItem_swap (hw : b'.WF env) (ha : Aside env b' it) (hready : SwapReady env b b' it dest)
    (hslot : ∀ tabId slotId, dest = .bank tabId slotId → slotId < guildBankMaxSlots)
    (hcan : b.canStore env it true dest = .ok vec)
    (hcounts : ∀ bag slot, dest = .player bag slot → (mover.counts b'.book it).isSome = true) :
    Stored env b' it (b'.storeItem env mover it vec dest) := by
  cases dest with
  | bank tabId slotId =>
    obtain ⟨hrange, rfl⟩ := canStoreInTab_swap ha.stack (hslot _ _ rfl) hcan
    obtain ⟨proto, hproto, hone, hle⟩ := ha.stack
    refine storeItems_stored hw ha (by simp) (by simp) (by simp) fun pn hpn => ?_
    obtain rfl := List.mem_singleton.1 hpn
    refine ⟨(hready.2 _).2 hrange, hone, fun proto' hproto' => ?_, fun d hd => ?_⟩
    · rw [hproto] at hproto'
      cases hproto'
      rw [hready.1, units, zero_add]
      exact hle
    · rw [hready.1] at hd
      cases hd
  | player bag slot =>
    simp only [canStore] at hcan
    split_ifs at hcan with hres
    cases hcan
    exact storeItem_player hw ha hready.2.1 hready.2.2 hready.1 hres (hcounts bag slot rfl)

theorem storeItem_bank_free {tabId slotId : ℕ} (hrange : b.InRange p) (h : b.tabs p = none) :
    (b.storeItem env mover it [(p, n)] (.bank tabId slotId)).inv = b.inv ∧
      (b.storeItem env mover it [(p, n)] (.bank tabId slotId)).book = b.book ∧
      ∀ q ≠ p, (b.storeItem env mover it [(p, n)] (.bank tabId slotId)).tabs q = b.tabs q := by
  have heq : b.storeItem env mover it [(p, n)] (.bank tabId slotId) =
      b.put p (some ({ it with count := n }.giveTo 0)) := by
    simp only [storeItem, storeItems, storeItemAt, getItem_of_inRange hrange, h,
      Bool.false_eq_true, if_false]
    exact setItem_of_inRange hrange _
  rw [heq]
  exact ⟨rfl, rfl, fun q hq => update_of_ne hq _ _⟩

theorem Holds.slot_lt (hw : b.WF env) (h : Holds env b it src) :
    ∀ tabId slotId, src = .bank tabId slotId → slotId < guildBankMaxSlots := by
  rintro tabId slotId rfl
  exact (hw.inRange h).2

/-- The other end still has its item after the removal from the source. -/
theorem Ends.holds_dest (mover : Mover) (hends : Ends src dest) (hw : b.WF env)
    (hs : Holds env b it src) (hd : Holds env b destItem dest) :
    Holds env (b.removeItem env mover it dest 0 src) destItem dest := by
  cases hends with
  | within hne hp hq =>
    simp only [Holds, removeItem_bank_tabs (hw.inRange hs)]
    rw [update_of_ne hne.symm]
    exact hd
  | toChar hslot bag slot =>
    simp only [Holds, removeItem_bank_inv]
    exact hd
  | fromChar hslot bag slot => exact hd

/-- The destination is ready once both items are out. -/
theorem Ends.swapReady_dest (mover : Mover) (hends : Ends src dest) (hw : b.WF env)
    (hs : Holds env b it src) (hd : Holds env b destItem dest) :
    SwapReady env b ((b.removeItem env mover it dest 0 src).removeItem env mover destItem src 0 dest)
      it dest := by
  have hto := (removeItem_whole mover hw hs dest).1
  have hd' := hends.holds_dest mover hw hs hd
  have hto' := (removeItem_whole mover hto.wf hd' src).1
  have hrange := fun q => (hto'.inRange q).trans (hto.inRange q)
  cases hends with
  | within hne hp hq =>
    refine ⟨?_, hrange⟩
    rw [removeItem_bank_tabs (hto.wf.inRange hd')]
    exact update_self _ _ _
  | fromChar hslot bag slot =>
    refine ⟨?_, hrange⟩
    rw [removeItem_bank_tabs (p := (_, _)) (hto.wf.inRange hd')]
    exact update_self _ _ _
  | @toChar tabId slotId hslot bag slot =>
    refine ⟨?_, hw.inv, hw.outside hs⟩
    have htake : ∀ b1 : GuildBank, b1.takeFromInventory env destItem 0 (bag, slot) =
        b1.inv.removeItem env (bag, slot) := fun b1 => by simp [takeFromInventory]
    have hinv : (b.removeItem env mover it (.player bag slot) 0 (.bank tabId slotId)).inv =
        b.inv := removeItem_bank_inv (.player bag slot) 0 tabId slotId
    rw [← hinv]
    rfl

/-- The source is ready once the moved item is stored at the destination. -/
theorem Ends.swapReady_src (hends : Ends src dest) (hw : b.WF env) (hs : Holds env b it src)
    (hd : Holds env b destItem dest) (hcan : b.canStore env it true dest = .ok vec) {b3 : GuildBank}
    (hb3 : b3 = ((b.removeItem env mover it dest 0 src).removeItem env mover destItem src 0
      dest).storeItem env mover it vec dest) (hrange : ∀ q, b3.InRange q ↔ b.InRange q) :
    SwapReady env b b3 destItem src := by
  have hto := (removeItem_whole mover hw hs dest).1
  have hd' := hends.holds_dest mover hw hs hd
  have hto' := (removeItem_whole mover hto.wf hd' src).1
  have hready := hends.swapReady_dest mover hw hs hd
  have hstack := hs.stack hw
  cases hends with
  | @within p q hne hp hq =>
    obtain ⟨hin, rfl⟩ := canStoreInTab_swap hstack hq hcan
    refine ⟨?_, hrange⟩
    rw [hb3, (storeItem_bank_free ((hready.2 _).2 hin) hready.1).2.2 _ hne,
      removeItem_bank_tabs (hto.wf.inRange hd'), removeItem_bank_tabs (hw.inRange hs)]
    exact (update_of_ne hne _ _).trans (update_self _ _ _)
  | @fromChar tabId slotId hslot bag slot =>
    have hlt := (hw.inRange hd).2
    obtain ⟨hin, rfl⟩ := canStoreInTab_swap hstack hlt hcan
    refine ⟨?_, hw.inv, hw.outside hd⟩
    rw [hb3, (storeItem_bank_free ((hready.2 _).2 hin) hready.1).1, removeItem_bank_inv]
    simp [removeItem, takeFromInventory]
  | @toChar tabId slotId hslot bag slot =>
    refine ⟨?_, hrange⟩
    have htabs : (b.removeItem env mover it (.player bag slot) 0 (.bank tabId slotId)).tabs =
        update b.tabs (tabId, slotId) none :=
      removeItem_bank_tabs (hw.inRange hs) (.player bag slot)
    rw [hb3, storeItem_player_tabs]
    exact (congrFun htabs _).trans (update_self _ _ _)

theorem withoutItem_congr (hinv : b'.inv = b.inv) (hbook : b'.book = b.book) :
    b'.withoutItem env mover it = b.withoutItem env mover it := by
  simp only [withoutItem, hinv, hbook]

/-- The log when the moved item comes to the player. -/
theorem Ends.book_dest (hends : Ends src dest) {bag slot : ℕ} (hplayer : dest = .player bag slot) :
    ((b.removeItem env mover it dest 0 src).removeItem env mover destItem src 0 dest).book =
      b.withoutItem env mover destItem := by
  cases hends with
  | within hne hp hq => cases hplayer
  | fromChar hslot bag slot => cases hplayer
  | toChar hslot bag slot =>
    exact withoutItem_congr (removeItem_bank_inv _ _ _ _) (removeItem_bank_book _ _ _ _)

/-- The log when the swapped item comes to the player. -/
theorem Ends.book_src (hends : Ends src dest) (hw : b.WF env) (hs : Holds env b it src)
    (hd : Holds env b destItem dest) (hcan : b.canStore env it true dest = .ok vec) {bag slot : ℕ}
    (hplayer : src = .player bag slot) :
    (((b.removeItem env mover it dest 0 src).removeItem env mover destItem src 0
      dest).storeItem env mover it vec dest).book = b.withoutItem env mover it := by
  cases hends with
  | within hne hp hq => cases hplayer
  | toChar hslot bag slot => cases hplayer
  | @fromChar tabId slotId hslot bag slot =>
    have hready := (Ends.fromChar hslot bag slot).swapReady_dest mover hw hs hd
    obtain ⟨hin, rfl⟩ := canStoreInTab_swap (hs.stack hw) (hw.inRange hd).2 hcan
    rw [(storeItem_bank_free ((hready.2 _).2 hin) hready.1).2.1, removeItem_bank_book]
    rfl

theorem doItemsMove_swap_kept (hw : b.WF env) (hends : Ends src dest) (hs : Holds env b it src)
    (hd : Holds env b destItem dest)
    (hto : ∀ bag slot, dest = .player bag slot → (b.canStore env it true dest).isOk = true →
      (b.canStore env destItem true src).isOk = true →
        (mover.counts (b.withoutItem env mover destItem) it).isSome = true)
    (hfrom : ∀ bag slot, src = .player bag slot → (b.canStore env it true dest).isOk = true →
      (b.canStore env destItem true src).isOk = true →
        (mover.counts (b.withoutItem env mover it) destItem).isSome = true) :
    Kept env b (b.doItemsMove env mover src dest it it (some destItem) 0) := by
  unfold doItemsMove
  cases hcan : b.canStore env it (some destItem).isSome dest with
  | error res => exact hw.kept
  | ok destVec =>
    simp only
    cases hback : b.canStore env destItem true src with
    | error res => exact hw.kept
    | ok srcVec =>
      have hok : (b.canStore env it true dest).isOk = true := congrArg Except.isOk hcan
      have hok' : (b.canStore env destItem true src).isOk = true := congrArg Except.isOk hback
      obtain ⟨hto1, ha1⟩ := removeItem_whole mover hw hs dest
      have hd1 := hends.holds_dest mover hw hs hd
      obtain ⟨hto2, ha2⟩ := removeItem_whole mover hto1.wf hd1 src
      have hst3 := storeItem_swap hto2.wf (hto2.aside it ha1)
        (hends.swapReady_dest mover hw hs hd) (hd.slot_lt hw) hcan fun bag slot hplayer => by
          rw [hends.book_dest hplayer]
          exact hto bag slot hplayer hok hok'
      have hrange := fun q =>
        (hst3.inRange q).trans ((hto2.inRange q).trans (hto1.inRange q))
      have hst4 := storeItem_swap hst3.wf (hst3.aside destItem ha2 (hd1.guid_ne ha1))
        (hends.swapReady_src hw hs hd hcan rfl hrange) (hs.slot_lt hw) hback
        fun bag slot hplayer => by
          rw [hends.book_src hw hs hd hcan hplayer]
          exact hfrom bag slot hplayer hok hok'
      refine ⟨hst4.wf, fun entry => ?_⟩
      have h1 := hto1.total entry
      have h2 := hto2.total entry
      have h3 := hst3.total entry
      have h4 := hst4.total entry
      simp only at h4 ⊢
      omega

/-- The item that moves : the clone that is split off, or the whole stack. -/
def moving (env : ItemEnv) (b : GuildBank) (it : Item) (splitedAmount : ℕ) :
    Option (Item × GuildBank) :=
  if splitedAmount ≠ 0 ∧ splitedAmount ≠ it.count then
    (b.inv.cloneItem env it splitedAmount).map fun r => (r.1.giveTo 0, b.withInv r.2)
  else some (it, b)

/-- The checks of a move : the source has the item, the player has the rights, and `CanStore` finds
room at the destination, or for a whole stack at both ends once the items are swapped. -/
structure Passed (env : ItemEnv) (b : GuildBank) (mover : Mover) (src dest : MoveItemData)
    (splitedAmount : ℕ) (it : Item) : Prop where
  init : b.initItem env mover src = some it
  amount : splitedAmount ≤ it.count
  store : b.hasStoreRights mover src dest = true
  withdraw : b.hasWithdrawRights mover dest src = true
  room : (∃ r, b.moving env it splitedAmount = some r ∧
      (r.2.canStore env r.1 false dest).isOk = true) ∨
    ∃ destItem, b.initItem env mover dest = some destItem ∧
      b.hasStoreRights mover dest src = true ∧ b.hasWithdrawRights mover src dest = true ∧
      (b.canStore env it true dest).isOk = true ∧ (b.canStore env destItem true src).isOk = true

theorem doItemsMove_moved {destItem : Option Item} {n : ℕ}
    (h : (b.doItemsMove env mover src dest it srcItem destItem n).moved = true) :
    (b.canStore env srcItem destItem.isSome dest).isOk = true ∧
      ∀ d, destItem = some d → (b.canStore env d true src).isOk = true := by
  unfold doItemsMove at h
  cases hcan : b.canStore env srcItem destItem.isSome dest with
  | error res =>
    rw [hcan] at h
    cases h
  | ok vec =>
    refine ⟨rfl, fun d hd => ?_⟩
    subst hd
    rw [hcan] at h
    simp only at h
    cases hback : b.canStore env d true src with
    | error res =>
      rw [hback] at h
      cases h
    | ok vec' => rfl

/-- No tracking quest is rewarded on the way : the item that comes to the player, be it merged or
swapped, is one that `ItemAddedQuestCheck` only counts, in the log that the player then has. -/
structure Unrewarded (env : ItemEnv) (b : GuildBank) (mover : Mover) (src dest : MoveItemData)
    (splitedAmount : ℕ) : Prop where
  merged : ∀ {bag slot it r}, dest = .player bag slot → b.initItem env mover src = some it →
    b.moving env it splitedAmount = some r → (r.2.canStore env r.1 false dest).isOk = true →
      (mover.counts b.book r.1).isSome = true
  swapped : ∀ {bag slot it destItem}, dest = .player bag slot →
    b.initItem env mover src = some it → b.initItem env mover dest = some destItem →
      (b.canStore env it true dest).isOk = true → (b.canStore env destItem true src).isOk = true →
        (mover.counts (b.withoutItem env mover destItem) it).isSome = true
  swappedBack : ∀ {bag slot it destItem}, src = .player bag slot →
    b.initItem env mover src = some it → b.initItem env mover dest = some destItem →
      (b.canStore env it true dest).isOk = true → (b.canStore env destItem true src).isOk = true →
        (mover.counts (b.withoutItem env mover it) destItem).isSome = true

/-- The clone that is split off is aside. -/
theorem WF.aside_clone (hw : b.WF env) (hs : Holds env b it src) (hn : n ≠ 0) (hlt : n < it.count) :
    ∃ new, b.inv.cloneItem env it n = some (new, b.inv.bump) ∧ new.entry = it.entry ∧
      new.count = n ∧ Aside env (b.withInv b.inv.bump) (new.giveTo 0) := by
  obtain ⟨proto, hproto, -, hle⟩ := hs.stack hw
  have hone : 1 ≤ n := Nat.one_le_iff_ne_zero.2 hn
  have hmax : n ≤ proto.getMaxStackSize := hlt.le.trans hle
  obtain ⟨new, hclone, hguid, hentry, hcount⟩ := cloneItem_eq b.inv hproto hone hmax
  have hok : env.StackOk (new.giveTo 0) :=
    ⟨proto, hentry.symm ▸ hproto, hcount.symm ▸ hone, hcount.symm ▸ hmax⟩
  have hempty : b.inv.isNotEmptyBag env (new.giveTo 0) = false :=
    isNotEmptyBag_fresh hw.inv.toDistinct hguid.ge
  refine ⟨new, hclone, hentry, hcount, ⟨hok, ⟨fun hc => ?_, hguid ▸ Nat.lt_succ_self _⟩, hempty⟩,
    fun hq => ?_⟩
  · exact hguid ▸ (hw.inv.fresh hc).ne
  · exact hguid ▸ (hw.outside hq).away.handed.ne

theorem split_kept {new : Item} (hw : b.WF env) (hends : Ends src dest) (hs : Holds env b it src)
    (hn : n ≠ 0) (hlt : n < it.count) (ha : Aside env (b.withInv b.inv.bump) (new.giveTo 0))
    (hentry : new.entry = it.entry) (hcount : new.count = n)
    (hcounts : ∀ bag slot, dest = .player bag slot →
      ((b.withInv b.inv.bump).canStore env (new.giveTo 0) false dest).isOk = true →
        (mover.counts b.book (new.giveTo 0)).isSome = true) :
    Kept env b ((b.withInv b.inv.bump).doItemsMove env mover src dest it (new.giveTo 0) none n) := by
  have hs' : Holds env (b.withInv b.inv.bump) it src := by
    cases src with
    | bank tabId slotId => exact hs
    | player bag slot => exact hs
  have hto := removeItem_part mover hw.bump hs' dest hn hlt
  have hkept : Kept env (b.withInv b.inv.bump)
      ((b.withInv b.inv.bump).doItemsMove env mover src dest it (new.giveTo 0) none n) :=
    doItemsMove_kept hw.bump hends n (by rw [Item.giveTo, hcount]; exact hto) (hto.aside _ ha)
      hentry (fun _ _ _ => ha.toOutside) hcounts
  exact ⟨hkept.wf, hkept.total⟩

theorem whole_kept (hw : b.WF env) (hends : Ends src dest) (hs : Holds env b it src)
    (hcounts : ∀ bag slot, dest = .player bag slot → (b.canStore env it false dest).isOk = true →
      (mover.counts b.book it).isSome = true) :
    Kept env b (b.doItemsMove env mover src dest it it none 0) := by
  obtain ⟨hto, ha⟩ := removeItem_whole mover hw hs dest
  refine doItemsMove_kept hw hends 0 hto ha rfl (fun tabId slotId hsrc => ?_) hcounts
  subst hsrc
  exact hw.outside hs

/-- A move keeps the items where no quest is rewarded on the way. -/
theorem moveItems_kept (hw : b.WF env) (hends : Ends src dest) {splitedAmount : ℕ}
    (hun : Unrewarded env b mover src dest splitedAmount) :
    Kept env b (b.moveItems env mover src dest splitedAmount) := by
  unfold moveItems
  cases hinit : b.initItem env mover src with
  | none => exact hw.kept
  | some it =>
    simp only
    have hs := hw.holds_of_initItem hinit
    by_cases hamount : splitedAmount > it.count
    · rw [if_pos hamount]
      exact hw.kept
    rw [if_neg hamount]
    split
    · exact hw.kept
    by_cases hsplit : splitedAmount ≠ 0 ∧ splitedAmount ≠ it.count
    · have hlt : splitedAmount < it.count := by omega
      obtain ⟨new, hclone, hentry, hcount, ha⟩ := hw.aside_clone hs hsplit.1 hlt
      simp only [if_pos hsplit, hclone]
      refine split_kept hw hends hs hsplit.1 hlt ha hentry hcount fun bag slot hplayer hok => ?_
      refine hun.merged (r := (new.giveTo 0, b.withInv b.inv.bump)) hplayer hinit ?_ hok
      rw [moving, if_pos hsplit, hclone, map_some]
    rw [if_neg hsplit]
    have hmoving : b.moving env it splitedAmount = some (it, b) := by
      rw [moving, if_neg hsplit]
    split
    · exact whole_kept hw hends hs fun bag slot hplayer hok =>
        hun.merged (r := (it, b)) hplayer hinit hmoving hok
    -- what cannot be merged is swapped
    cases hdest : b.initItem env mover dest with
    | none => exact hw.kept
    | some destItem =>
      simp only
      split
      · exact hw.kept
      · exact doItemsMove_swap_kept hw hends hs (hw.holds_of_initItem hdest)
          (fun bag slot hplayer => hun.swapped hplayer hinit hdest)
          fun bag slot hplayer => hun.swappedBack hplayer hinit hdest

/-! ## Refusals -/

/-- What a call does that moves nothing, and what it has checked if something moves. -/
structure Served (env : ItemEnv) (b : GuildBank) (mover : Mover) (src dest : MoveItemData)
    (splitedAmount : ℕ) (r : MoveResult) : Prop where
  passed : r.moved = true → ∃ it, Passed env b mover src dest splitedAmount it
  refused : r.moved = false →
    r.bank.guild = b.guild ∧ r.bank.tabs = b.tabs ∧ r.bank.inv.cells = b.inv.cells

theorem served_refused (splitedAmount : ℕ) :
    Served env b mover src dest splitedAmount { bank := b } :=
  ⟨fun hc => (nomatch hc), fun _ => ⟨rfl, rfl, rfl⟩⟩

theorem doItemsMove_refused {destItem : Option Item} {n : ℕ}
    (h : (b.doItemsMove env mover src dest it srcItem destItem n).moved = false) :
    (b.doItemsMove env mover src dest it srcItem destItem n).bank = b := by
  unfold doItemsMove at h ⊢
  cases hcan : b.canStore env srcItem destItem.isSome dest with
  | error res => rfl
  | ok vec =>
    rw [hcan] at h
    cases destItem with
    | none => cases h
    | some d =>
      simp only at h ⊢
      cases hback : b.canStore env d true src with
      | error res => rfl
      | ok vec' =>
        rw [hback] at h
        cases h

theorem moveItems_served (splitedAmount : ℕ) :
    Served env b mover src dest splitedAmount
      (b.moveItems env mover src dest splitedAmount) := by
  unfold moveItems
  cases hinit : b.initItem env mover src with
  | none => exact served_refused _
  | some it =>
    simp only
    by_cases hamount : splitedAmount > it.count
    · rw [if_pos hamount]
      exact served_refused _
    rw [if_neg hamount]
    split
    · exact served_refused _
    rename_i hrights
    simp only [Bool.or_eq_true, Bool.not_eq_true', not_or, Bool.not_eq_false] at hrights
    have hpassed := Passed.mk hinit (not_lt.1 hamount) hrights.1 hrights.2
    by_cases hsplit : splitedAmount ≠ 0 ∧ splitedAmount ≠ it.count
    · rw [if_pos hsplit]
      cases hclone : b.inv.cloneItem env it splitedAmount with
      | none => exact served_refused _
      | some r =>
        obtain ⟨new, inv'⟩ := r
        obtain ⟨rfl, -, -⟩ := cloneItem_eq_some hclone
        refine ⟨fun hmoved => ⟨it, hpassed ?_⟩, fun hstays => ?_⟩
        · have hcan : ((b.withInv b.inv.bump).canStore env (new.giveTo 0) false dest).isOk = true :=
            (doItemsMove_moved hmoved).1
          refine .inl ⟨(new.giveTo 0, b.withInv b.inv.bump), ?_, hcan⟩
          rw [moving, if_pos hsplit, hclone, map_some]
        · rw [doItemsMove_refused hstays]
          exact ⟨rfl, rfl, rfl⟩
    rw [if_neg hsplit]
    split
    · rename_i hmoved
      refine ⟨fun _ => ⟨it, hpassed (.inl ⟨(it, b), ?_, (doItemsMove_moved hmoved).1⟩)⟩,
        fun hstays => absurd hmoved (by simp [hstays])⟩
      rw [moving, if_neg hsplit]
    cases hdest : b.initItem env mover dest with
    | none => exact served_refused _
    | some destItem =>
      simp only
      split
      · exact served_refused _
      rename_i hback
      simp only [Bool.or_eq_true, Bool.not_eq_true', not_or, Bool.not_eq_false] at hback
      refine ⟨fun hmoved => ⟨it, hpassed (.inr ⟨destItem, hdest, hback.1, hback.2, ?_⟩)⟩,
        fun hstays => ?_⟩
      · obtain ⟨hcan, hcan'⟩ := doItemsMove_moved hmoved
        exact ⟨hcan, hcan' destItem rfl⟩
      · rw [doItemsMove_refused hstays]
        exact ⟨rfl, rfl, rfl⟩

/-! ## Calls -/

/-- The source of a call. -/
def BankCall.source : BankCall → MoveItemData
  | .swapItems tabId slotId _ _ _ => .bank tabId slotId
  | .swapItemsWithInventory toChar tabId slotId playerBag playerSlotId _ =>
    if toChar then .bank tabId slotId else .player playerBag playerSlotId

/-- The destination of a call. -/
def BankCall.destination : BankCall → MoveItemData
  | .swapItems _ _ destTabId destSlotId _ => .bank destTabId destSlotId
  | .swapItemsWithInventory toChar tabId slotId playerBag playerSlotId _ =>
    if toChar then .player playerBag playerSlotId else .bank tabId slotId

/-- The units that a call splits off, or zero for the whole stack. -/
def BankCall.splitedAmount : BankCall → ℕ
  | .swapItems _ _ _ _ splitedAmount => splitedAmount
  | .swapItemsWithInventory _ _ _ _ _ splitedAmount => splitedAmount

theorem smallBank_wf : smallBank.WF smallEnv := by
  have htabs : ∀ {p it}, smallBank.tabs p = some it →
      (p = (0, 0) ∧ it = { guid := 4, entry := 117, count := 5 }) ∨
        (p = (0, 1) ∧ it = { guid := 5, entry := 117, count := 18 }) := by
    intro p it h
    simp only [smallBank] at h
    split_ifs at h with h0 h1
    · exact .inl ⟨h0, (some.inj h).symm⟩
    · exact .inr ⟨h1, (some.inj h).symm⟩
  have hwf : ({ smallInventory with nextGuid := 6 } : Inventory).WF smallEnv :=
    @Inventory.wf_ofList smallEnv 1 6
      [(.slot 23, { guid := 1, entry := 117, count := 5 }),
        (.slot 24, { guid := 2, entry := 117, count := 18 }),
        (.slot 25, { guid := 3, entry := 25, count := 1 })]
      (by decide) (by decide) (by decide) (by decide)
  have hfresh : ∀ {c it}, smallBank.inv.cells c = some it → it.guid < 4 :=
    fun h => smallInventory_wf.fresh h
  refine ⟨hwf, fun h => ?_, fun h => ?_, fun h h' hg => ?_⟩
  · rcases htabs h with ⟨rfl, -⟩ | ⟨rfl, -⟩ <;> exact ⟨by decide, by decide⟩
  · rcases htabs h with ⟨-, rfl⟩ | ⟨-, rfl⟩ <;>
      exact ⟨by decide, ⟨fun hc => by have := hfresh hc; simp; omega, by decide⟩, by decide⟩
  · rcases htabs h with ⟨rfl, rfl⟩ | ⟨rfl, rfl⟩ <;> rcases htabs h' with ⟨rfl, rfl⟩ | ⟨rfl, rfl⟩ <;>
      simp_all

/-- What `RewardQuest` does to the items, without a chosen reward : it destroys those that the quest
asks for and stores the rewards that find room. -/
def rewardItems (env : ItemEnv) (q : Quest) (inv : Inventory) : Inventory :=
  let taken := (List.finRange questItemObjectivesCount).foldl (fun inv i =>
    if q.requiredItemId i = 0 then inv
    else (inv.destroyItemCount env (fun _ _ => true) false (q.requiredItemId i)
      (q.requiredItemCount i)).inv) inv
  (q.rewardItem.take q.rewItemsCount).foldl (fun inv item =>
    let room := inv.canStoreItem env nullBag nullSlot item.1 item.2 none false
    if item.1 ≠ 0 ∧ room.res = .ok then (inv.storeNewItem env room.dest item.1).2 else inv) taken

/-- Five of entry 117 for one of entry 25. -/
def trackingQuest : Quest where
  id := 7
  tracking := true
  deliver := true
  requiredItemId i := if i.1 = 0 then 117 else 0
  requiredItemCount i := if i.1 = 0 then 5 else 0
  rewardItem := [(25, 1), (0, 0), (0, 0), (0, 0)]
  rewItemsCount := 1

theorem id_of_tracking {i : ℕ} {q : Quest}
    (h : (if i = 7 then some trackingQuest else none) = some q) : q.id = i := by
  split_ifs at h with hi
  rw [← some.inj h, hi]
  rfl

def trackedMover (player : PlayerGuid) : Mover where
  player := player
  quests :=
    { template := fun i => if i = 7 then some trackingQuest else none, template_id := id_of_tracking }
  rewarded _ book inv :=
    ((book.clearQuestSlot 7).markRewarded 7, rewardItems smallEnv trackingQuest inv)

/-- Three of entry 117 in the inventory, which the quest has counted, and two in the bank. -/
def trackedBank : GuildBank where
  guild := smallBank.guild
  tabs p := if p = (0, 0) then some { guid := 4, entry := 117, count := 2 } else none
  inv := .ofList 1 6 [(.slot 23, { guid := 1, entry := 117, count := 3 })]
  book :=
    { slots := fun i => if i.1 = 0 then 7 else 0
      questStatus := fun i =>
        if i = 7 then some { status := .incomplete, itemCount := fun j => if j.1 = 0 then 3 else 0 }
        else none }

theorem trackedBank_wf : trackedBank.WF smallEnv := by
  have htabs : ∀ {p it}, trackedBank.tabs p = some it →
      p = (0, 0) ∧ it = { guid := 4, entry := 117, count := 2 } := by
    intro p it h
    simp only [trackedBank] at h
    split_ifs at h with h0
    exact ⟨h0, (some.inj h).symm⟩
  have hinv : trackedBank.inv.WF smallEnv :=
    Inventory.wf_ofList (by decide) (by decide) (by decide) (by decide)
  refine ⟨hinv, fun h => ?_, fun h => ?_, fun h h' _ => by rw [(htabs h).1, (htabs h').1]⟩
  · obtain ⟨rfl, -⟩ := htabs h
    exact ⟨by decide, by decide⟩
  · obtain ⟨-, rfl⟩ := htabs h
    refine ⟨by decide, ⟨fun {c it} hc => ?_, by decide⟩, by decide⟩
    obtain ⟨⟨c', it'⟩, hfind, rfl⟩ := map_eq_some_iff.1 hc
    have hmem := List.mem_singleton.1 (Keyed.mem_of_find hfind).1
    rw [(Prod.mk.inj hmem).2]
    exact Nat.ne_of_beq_eq_false rfl

end GuildBank

end MistyWorld
