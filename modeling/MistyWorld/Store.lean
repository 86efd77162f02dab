import MistyWorld.CanStore

/-!
# Storing items

`Player::StoreItem` puts an item at the destinations that `CanStoreItem` found. At all but the last
a clone of the item is stored, at the last the item itself. Where a stack is at the destination, the
stack grows and the item is destroyed.
-/

open Function Word FirstFit Finset

namespace MistyWorld

/-- The item gets bound when it is stored at the position : `BIND_WHEN_PICKED_UP`,
`BIND_QUEST_ITEM`, or `BIND_WHEN_EQUIPED` at the slot of a bag. -/
def ItemTemplate.bindsAt (proto : ItemTemplate) (pos : Pos) : Bool :=
  proto.bonding = 1 || proto.bonding = 4 || (proto.bonding = 2 && isBagPos pos)

/-- `ITEM_FIELD_OWNER` of an item that is stored. -/
def Item.giveTo (it : Item) (owner : ℕ) : Item :=
  { it with owner }

/-- `SetBinding` of an item that is stored at the position. -/
def ItemEnv.bindItem (env : ItemEnv) (pos : Pos) (it : Item) : Item :=
  if (env.template it.entry).any fun proto => proto.bindsAt pos then { it with soulBound := true }
  else it

namespace Inventory

variable (env : ItemEnv) (inv : Inventory)

/-- The inventory after a guid was handed out. -/
def bump : Inventory :=
  { inv with nextGuid := inv.nextGuid + 1 }

/-- `Item::CreateItem`, with the inventory that has handed out the guid. -/
def createItem (entry count : ℕ) : Option (Item × Inventory) :=
  if count < 1 then none
  else
    (env.template entry).map fun proto =>
      ({ guid := inv.nextGuid, entry, count := min count proto.getMaxStackSize, owner := inv.owner },
        inv.bump)

/-- `Item::CloneItem`. -/
def cloneItem (it : Item) (count : ℕ) : Option (Item × Inventory) :=
  (inv.createItem env it.entry count).map fun r =>
    ({ r.1 with soulBound := it.soulBound, expiration := it.expiration }, r.2)

/-- `Player::_StoreItem`. A bag does not take itself (`Bag::StoreItem`). -/
def storeItemAt (pos : Pos) (it : Item) (count : ℕ) (clone : Bool) : Option Item × Inventory :=
  match inv.getItemByPos env pos with
  | none =>
    match if clone then inv.cloneItem env it count else some ({ it with count }, inv) with
    | none => (none, inv)
    | some (new, inv') =>
      let stored := (env.bindItem pos new).giveTo inv.owner
      match if pos.1 = inventorySlotBag0 then none else inv'.getBagByPos env pos.1 with
      | none => (some stored, inv'.put env pos (some stored))
      | some b =>
        if new.guid = b.guid then (some (env.bindItem pos new), inv')
        else (some stored, inv'.put env pos (some stored))
  | some item2 =>
    let stored := { env.bindItem pos item2 with count := toU32 (item2.count + count) }
    (some stored, inv.put env pos (some stored))

/-- `Player::StoreItem`. -/
def storeItem (it : Item) : List (Pos × ℕ) → Inventory → Option Item × Inventory
  | [], inv => (some it, inv)
  | [(pos, count)], inv => inv.storeItemAt env pos it count false
  | (pos, count) :: d :: dest, inv => storeItem it (d :: dest) (inv.storeItemAt env pos it count true).2

/-- `Player::StoreNewItem`. -/
def storeNewItem (dest : List (Pos × ℕ)) (entry : ℕ) : Option Item × Inventory :=
  match inv.createItem env entry (dest.map Prod.snd).sum with
  | none => (none, inv)
  | some (it, inv') => storeItem env it dest inv'

/-! ## One destination -/

variable {env inv} {it : Item} {p : Pos} {n g : ℕ} {inv₁ inv' : Inventory} {clone : Bool}
  {proto : ItemTemplate}

@[simp] theorem bindItem_guid (p : Pos) (it : Item) : (env.bindItem p it).guid = it.guid := by
  unfold ItemEnv.bindItem
  split_ifs <;> rfl

@[simp] theorem bindItem_entry (p : Pos) (it : Item) : (env.bindItem p it).entry = it.entry := by
  unfold ItemEnv.bindItem
  split_ifs <;> rfl

@[simp] theorem bindItem_count (p : Pos) (it : Item) : (env.bindItem p it).count = it.count := by
  unfold ItemEnv.bindItem
  split_ifs <;> rfl

/-- The item is in no cell, and has a template and a guid. -/
structure Loose (env : ItemEnv) (inv : Inventory) (it : Item) : Prop where
  absent : ∀ {c it'}, inv.cells c = some it' → it'.guid ≠ it.guid
  guid : it.guid < inv.nextGuid
  template : ∃ proto, env.template it.entry = some proto

/-- The position takes `n` units of the item : it is free, or has a stack with room for them. -/
structure Takes (env : ItemEnv) (inv : Inventory) (it : Item) (p : Pos) (n : ℕ) : Prop where
  usable : Usable env inv p
  one_le : 1 ≤ n
  le_max : ∀ proto, env.template it.entry = some proto →
    units it.entry (inv.getItemByPos env p) + n ≤ proto.getMaxStackSize
  same : ∀ item2, inv.getItemByPos env p = some item2 → item2.entry = it.entry

theorem WF.bump (hw : inv.WF env) : inv.bump.WF env where
  stack := hw.stack
  guid := hw.guid
  fresh h := Nat.lt_succ_of_lt (hw.fresh h)
  fresh_bag g j h := hw.fresh_bag g j (Nat.le_of_succ_le h)

theorem Takes.bump (h : Takes env inv it p n) : Takes env inv.bump it p n :=
  ⟨h.usable, h.one_le, h.le_max, h.same⟩

theorem createItem_eq (inv : Inventory) {entry : ℕ} (hproto : env.template entry = some proto)
    (hone : 1 ≤ n) :
    ∃ new, inv.createItem env entry n = some (new, inv.bump) ∧ new.guid = inv.nextGuid ∧
      new.entry = entry := by
  have hnot : ¬ n < 1 := by omega
  simp [createItem, hnot, hproto]

theorem cloneItem_eq (inv : Inventory) (hproto : env.template it.entry = some proto) (hone : 1 ≤ n)
    (hle : n ≤ proto.getMaxStackSize) :
    ∃ new, inv.cloneItem env it n = some (new, inv.bump) ∧ new.guid = inv.nextGuid ∧
      new.entry = it.entry ∧ new.count = n := by
  have hmin : min n proto.getMaxStackSize = n := min_eq_left hle
  have hnot : ¬ n < 1 := by omega
  simp [cloneItem, createItem, hnot, hproto, hmin]

/-- Where the guid of a stored item comes from : the item itself, the stack that was there, or a new
guid for a clone. -/
inductive Origin (env : ItemEnv) (inv : Inventory) (it : Item) (p : Pos) (clone : Bool) :
    Inventory → ℕ → Prop
  | moved (hc : clone = false) (hget : inv.getItemByPos env p = none) :
    Origin env inv it p clone inv it.guid
  | merged (item2 : Item) (hget : inv.getItemByPos env p = some item2) :
    Origin env inv it p clone inv item2.guid
  | cloned (hc : clone = true) (hget : inv.getItemByPos env p = none) :
    Origin env inv it p clone inv.bump inv.nextGuid

/-- Storing at a position is writing it. -/
theorem storeItemAt_eq_put (hw : inv.WF env) (hl : Loose env inv it) (ht : Takes env inv it p n)
    (clone : Bool) :
    ∃ inv₁ new, inv.storeItemAt env p it n clone = (some new, inv₁.put env p (some new)) ∧
      new.entry = it.entry ∧ new.count = units it.entry (inv.getItemByPos env p) + n ∧
      Origin env inv it p clone inv₁ new.guid := by
  obtain ⟨proto, hproto⟩ := hl.template
  have hle := ht.le_max proto hproto
  have hmax := proto.getMaxStackSize_lt
  unfold storeItemAt
  cases hget : inv.getItemByPos env p with
  | some item2 =>
    have hentry := ht.same item2 hget
    rw [hget, units, if_pos hentry] at hle
    refine ⟨inv, _, rfl, ?_, ?_, ?_⟩
    · simpa using hentry
    · rw [units, if_pos hentry]
      exact toU32_of_lt (by omega)
    · have horigin : Origin env inv it p clone inv item2.guid := .merged item2 hget
      simpa using horigin
  | none =>
    rw [hget, units, zero_add] at hle
    simp only [units, zero_add]
    cases clone with
    | false =>
      refine ⟨inv, (env.bindItem p { it with count := n }).giveTo inv.owner, ?_, ?_, ?_, ?_⟩
      · simp only [Bool.false_eq_true, if_false]
        split
        · rfl
        · rename_i b hb
          split_ifs at hb with htop
          have hne := hl.absent (getBagByPos_eq_some hb).2.1
          rw [if_neg hne.symm]
      · simp [Item.giveTo]
      · simp [Item.giveTo]
      · have horigin : Origin env inv it p false inv it.guid := .moved rfl hget
        simpa [Item.giveTo] using horigin
    | true =>
      obtain ⟨new, hclone, hguid, hentry, hcount⟩ :=
        cloneItem_eq inv hproto ht.one_le hle
      refine ⟨inv.bump, (env.bindItem p new).giveTo inv.owner, ?_, ?_, ?_, ?_⟩
      · simp only [if_true, hclone]
        split
        · rfl
        · rename_i b hb
          split_ifs at hb with htop
          have hlt := hw.fresh (getBagByPos_eq_some hb).2.1
          rw [if_neg (by omega)]
      · simpa [Item.giveTo] using hentry
      · simpa [Item.giveTo] using hcount
      · have horigin : Origin env inv it p true inv.bump inv.nextGuid := .cloned rfl hget
        simpa [Item.giveTo, hguid] using horigin

section

variable (h : Origin env inv it p clone inv₁ g)
include h

theorem Origin.cells_eq : inv₁.cells = inv.cells := by
  cases h <;> rfl

theorem Origin.getItemByPos_eq : inv₁.getItemByPos env = inv.getItemByPos env := by
  cases h <;> rfl

theorem Origin.inside_eq : inv₁.inside env = inv.inside env := by
  cases h <;> rfl

theorem Origin.usable_iff (q : Pos) : Usable env inv₁ q ↔ Usable env inv q := by
  cases h <;> rfl

theorem Origin.wf (hw : inv.WF env) : inv₁.WF env := by
  cases h with
  | moved => exact hw
  | merged => exact hw
  | cloned => exact hw.bump

end

/-- The stored item has a guid of its own. -/
theorem Origin.wf_put {new : Item} (h : Origin env inv it p clone inv₁ new.guid) (hw : inv.WF env)
    (hl : Loose env inv it) (hok : env.StackOk new) : (inv₁.put env p (some new)).WF env := by
  refine (h.wf hw).put fun it' hit' => ?_
  cases hit'
  refine ⟨hok, ?_⟩
  generalize hg : new.guid = g at h
  cases h with
  | moved hc hget => exact ⟨hl.guid, fun c it' hc hg => absurd hg (hl.absent hc)⟩
  | merged item2 hget =>
    rw [(usable_of_getItemByPos hget).getItemByPos_eq] at hget
    exact ⟨hw.fresh hget, fun c it' hc hg => hw.guid hc hget hg⟩
  | cloned hc hget =>
    exact ⟨Nat.lt_succ_self _, fun c it' hc hg => absurd (hw.fresh hc) (by omega)⟩

/-- Only a filled bag brings slots to light. -/
theorem Origin.inside_new {new : Item} (h : Origin env inv it p clone inv₁ new.guid)
    (hw : inv.WF env) (ht : Takes env inv it p n) (hentry : new.entry = it.entry)
    (hempty : inv.isNotEmptyBag env it = false) :
    inv.inside env (some new) = inv.inside env (inv.getItemByPos env p) := by
  generalize hg : new.guid = g at h
  cases h with
  | moved hc hget =>
    rw [hget, inside_congr hg hentry, inside_of_empty hempty, inside_none]
  | merged item2 hget =>
    rw [hget]
    exact inside_congr hg (hentry.trans (ht.same item2 hget).symm)
  | cloned hc hget =>
    rw [hget, inside_of_empty (isNotEmptyBag_fresh hw.toDistinct hg.ge), inside_none]

theorem usable_put {o : Option Item} {q : Pos} (hp : Usable env inv p)
    (hold : ∀ b, inv.getItemByPos env p = some b → ∃ new, o = some new ∧ new.entry = b.entry)
    (hq : Usable env inv q) : Usable env (inv.put env p o) q := by
  rcases hq with htop | ⟨b, hb, hj⟩
  · exact Or.inl htop
  obtain ⟨hslot, hcell, hbag⟩ := getBagByPos_eq_some hb
  refine Or.inr ?_
  by_cases hcp : inv.cellOf env p = .slot q.1
  · have hget : inv.getItemByPos env p = some b := by
      rw [hp.getItemByPos_eq, hcp, hcell]
    obtain ⟨new, rfl, hentry⟩ := hold b hget
    have hnew : (inv.put env p (some new)).cells (.slot q.1) = some new := by
      rw [put, hcp]
      exact update_self _ _ _
    refine ⟨new, getBagByPos_of_cells hslot hnew ?_, ?_⟩
    · rw [← hbag, ItemEnv.isBag, ItemEnv.isBag, hentry]
    · rwa [ItemEnv.bagSize, hentry, ← ItemEnv.bagSize]
  · exact ⟨b, by rw [getBagByPos_put hcp, hb], hj⟩

/-- What storing at one destination does. -/
structure StoredAt (env : ItemEnv) (inv : Inventory) (it : Item) (p : Pos) (n : ℕ)
    (inv' : Inventory) : Prop where
  wf : inv'.WF env
  get : ∃ new, inv'.getItemByPos env = update (inv.getItemByPos env) p (some new) ∧
    new.entry = it.entry ∧ new.count = units it.entry (inv.getItemByPos env p) + n
  usable : ∀ q, Usable env inv q → Usable env inv' q

theorem storeItemAt_spec (hw : inv.WF env) (hl : Loose env inv it) (ht : Takes env inv it p n)
    (hempty : inv.isNotEmptyBag env it = false) (clone : Bool) :
    StoredAt env inv it p n (inv.storeItemAt env p it n clone).2 := by
  obtain ⟨inv₁, new, heq, hentry, hcount, horigin⟩ := storeItemAt_eq_put hw hl ht clone
  obtain ⟨proto, hproto⟩ := hl.template
  have hone := ht.one_le
  have hle := ht.le_max proto hproto
  have hok : env.StackOk new := ⟨proto, by rw [hentry, hproto], by omega, by omega⟩
  have hu : Usable env inv₁ p := (horigin.usable_iff p).2 ht.usable
  rw [heq]
  refine ⟨horigin.wf_put hw hl hok, ⟨new, ?_, hentry, hcount⟩, fun q hq => ?_⟩
  · rw [getItemByPos_put (horigin.wf hw).toDistinct hu, horigin.getItemByPos_eq]
    intro _
    rw [horigin.inside_eq, horigin.getItemByPos_eq]
    exact horigin.inside_new hw ht hentry hempty
  · refine usable_put hu (fun b hb => ⟨new, rfl, ?_⟩) ((horigin.usable_iff q).2 hq)
    rw [horigin.getItemByPos_eq] at hb
    rw [hentry, ht.same b hb]

/-- After a clone was stored, the item is still outside. -/
theorem loose_storeItemAt (hw : inv.WF env) (hl : Loose env inv it) (ht : Takes env inv it p n) :
    Loose env (inv.storeItemAt env p it n true).2 it ∧
      ∀ j, (inv.storeItemAt env p it n true).2.cells (.bagSlot it.guid j) =
        inv.cells (.bagSlot it.guid j) := by
  obtain ⟨inv₁, new, heq, -, -, horigin⟩ := storeItemAt_eq_put hw hl ht true
  have hcells := horigin.cells_eq
  have hcell : inv₁.cellOf env p = inv.cellOf env p := by
    simp only [cellOf, getBagByPos, hcells]
  have hnew : new.guid ≠ it.guid := by
    generalize new.guid = g at horigin
    cases horigin with
    | moved hc _ => cases hc
    | merged item2 hget =>
      rw [(usable_of_getItemByPos hget).getItemByPos_eq] at hget
      exact hl.absent hget
    | cloned => exact hl.guid.ne'
  rw [heq]
  refine ⟨⟨fun {c it'} hc => ?_, ?_, hl.template⟩, fun j => ?_⟩
  · by_cases hcc : c = inv₁.cellOf env p
    · subst hcc
      simp only [put, update_self, Option.some.injEq] at hc
      exact hc ▸ hnew
    · simp only [put, update_of_ne hcc, hcells] at hc
      exact hl.absent hc
  · generalize new.guid = g at horigin
    cases horigin with
    | moved hc _ => exact hl.guid
    | merged => exact hl.guid
    | cloned => exact Nat.lt_succ_of_lt hl.guid
  · simp only [put, hcell, hcells]
    refine update_of_ne (fun hc => ?_) _ _
    unfold cellOf at hc
    split at hc
    · rename_i b hb
      split_ifs at hb
      obtain ⟨hg, -⟩ := Cell.bagSlot.inj hc
      exact hl.absent (getBagByPos_eq_some hb).2.1 hg.symm
    · cases hc

theorem isNotEmptyBag_congr
    (h : ∀ j, inv'.cells (.bagSlot it.guid j) = inv.cells (.bagSlot it.guid j)) :
    inv'.isNotEmptyBag env it = inv.isNotEmptyBag env it := by
  simp only [isNotEmptyBag, h]

/-! ## All destinations -/

/-- What storing at all destinations does. -/
structure Filled (env : ItemEnv) (inv : Inventory) (it : Item) (dest : List (Pos × ℕ))
    (inv' : Inventory) : Prop where
  wf : inv'.WF env
  frame : ∀ q ∉ dest.map Prod.fst, inv'.getItemByPos env q = inv.getItemByPos env q
  filled : ∀ pn ∈ dest, ∃ new, inv'.getItemByPos env pn.1 = some new ∧ new.entry = it.entry ∧
    new.count = units it.entry (inv.getItemByPos env pn.1) + pn.2
  total : ∀ entry, total entry (inv'.getItemByPos env) = total entry (inv.getItemByPos env) +
    if entry = it.entry then (dest.map Prod.snd).sum else 0

theorem total_storedAt (h : StoredAt env inv it p n inv') (ht : Takes env inv it p n) (entry : ℕ) :
    total entry (inv'.getItemByPos env) =
      total entry (inv.getItemByPos env) + if entry = it.entry then n else 0 := by
  obtain ⟨new, hget, hentry, hcount⟩ := h.get
  have htotal := total_update ht.usable.mem_positions entry (inv.getItemByPos env) (some new)
  rw [← hget] at htotal
  have hunits : units entry (some new) =
      units entry (inv.getItemByPos env p) + if entry = it.entry then n else 0 := by
    by_cases he : entry = it.entry
    · simp [units, hentry, he, hcount]
    · have hold : units entry (inv.getItemByPos env p) = 0 := by
        cases hp : inv.getItemByPos env p with
        | none => rfl
        | some item2 => simp [units, ht.same item2 hp, Ne.symm he]
      rw [hold, if_neg he, units, hentry, if_neg (Ne.symm he)]
  omega

theorem StoredAt.takes (h : StoredAt env inv it p n inv') {q : Pos} {m : ℕ} (hq : q ≠ p)
    (ht : Takes env inv it q m) : Takes env inv' it q m := by
  obtain ⟨new, hget, -, -⟩ := h.get
  have hsame : inv'.getItemByPos env q = inv.getItemByPos env q := by
    rw [hget, update_of_ne hq]
  exact ⟨h.usable q ht.usable, ht.one_le, by rw [hsame]; exact ht.le_max,
    by rw [hsame]; exact ht.same⟩

/-- Storing an item that is no filled bag. -/
theorem storeItem_filled :
    ∀ (dest : List (Pos × ℕ)) {inv : Inventory}, dest ≠ [] → inv.WF env → Loose env inv it →
      inv.isNotEmptyBag env it = false → (dest.map Prod.fst).Nodup →
      (∀ pn ∈ dest, Takes env inv it pn.1 pn.2) →
      Filled env inv it dest (storeItem env it dest inv).2
  | [], _, h, _, _, _, _, _ => absurd rfl h
  | [(p, n)], inv, _, hw, hl, hempty, _, ht => by
    have htp : Takes env inv it p n := ht (p, n) List.mem_cons_self
    have hst := storeItemAt_spec hw hl htp hempty false
    obtain ⟨new, hget, hentry, hcount⟩ := hst.get
    rw [storeItem]
    refine ⟨hst.wf, fun q hq => ?_, fun pn hpn => ?_, fun entry => ?_⟩
    · rw [hget, update_of_ne (by simpa using hq)]
    · obtain rfl := List.mem_singleton.1 hpn
      exact ⟨new, by rw [hget, update_self], hentry, hcount⟩
    · rw [total_storedAt hst htp]
      simp
  | (p, n) :: d :: dest, inv, _, hw, hl, hempty, hnodup, ht => by
    have htp : Takes env inv it p n := ht (p, n) List.mem_cons_self
    have hst := storeItemAt_spec hw hl htp hempty true
    obtain ⟨hl', hbag⟩ := loose_storeItemAt hw hl htp
    rw [List.map_cons, List.nodup_cons] at hnodup
    have hne : ∀ pn ∈ d :: dest, pn.1 ≠ p := by
      intro pn hpn heq
      have hmem := List.mem_map_of_mem hpn (f := Prod.fst)
      exact hnodup.1 (heq ▸ hmem)
    have hrest := storeItem_filled (d :: dest) (List.cons_ne_nil _ _) hst.wf hl'
      ((isNotEmptyBag_congr hbag).trans hempty) hnodup.2
      fun pn hpn => hst.takes (hne pn hpn) (ht pn (List.mem_cons_of_mem _ hpn))
    obtain ⟨new, hget, hentry, hcount⟩ := hst.get
    rw [storeItem]
    refine ⟨hrest.wf, fun q hq => ?_, fun pn hpn => ?_, fun entry => ?_⟩
    · rw [List.map_cons, List.mem_cons, not_or] at hq
      rw [hrest.frame q hq.2, hget, update_of_ne hq.1]
    · rcases List.mem_cons.1 hpn with rfl | hpn
      · exact ⟨new, by rw [hrest.frame p hnodup.1, hget, update_self], hentry, hcount⟩
      · obtain ⟨new', hget', hentry', hcount'⟩ := hrest.filled pn hpn
        refine ⟨new', hget', hentry', ?_⟩
        rw [hcount', hget, update_of_ne (hne pn hpn)]
    · rw [hrest.total, total_storedAt hst htp]
      split_ifs
      · simp only [List.map_cons, List.sum_cons, add_assoc]
      · rw [add_zero]

/-- Storing a new item, whose guid changes no slot. -/
theorem storeNewItem_filled {entry : ℕ} {dest : List (Pos × ℕ)} (hw : inv.WF env)
    (hproto : env.template entry = some proto) (hpos : 1 ≤ (dest.map Prod.snd).sum)
    (hnodup : (dest.map Prod.fst).Nodup)
    (ht : ∀ it : Item, it.entry = entry → ∀ pn ∈ dest, Takes env inv it pn.1 pn.2) :
    ∃ new : Item, new.entry = entry ∧ inv.isNotEmptyBag env new = false ∧
      Filled env inv new dest (inv.storeNewItem env dest entry).2 := by
  have hne : dest ≠ [] := by
    rintro rfl
    simp at hpos
  obtain ⟨new, hnew, hguid, hentry⟩ := createItem_eq inv hproto hpos
  have hl : Loose env inv.bump new :=
    ⟨fun hc => hguid ▸ (hw.fresh hc).ne, hguid ▸ Nat.lt_succ_self _, proto, hentry ▸ hproto⟩
  have hempty : inv.isNotEmptyBag env new = false :=
    isNotEmptyBag_fresh hw.toDistinct hguid.ge
  have hfilled := storeItem_filled dest hne hw.bump hl hempty hnodup
    fun pn hpn => (ht new hentry pn hpn).bump
  refine ⟨new, hentry, hempty, ?_⟩
  simp only [storeNewItem, hnew]
  exact ⟨hfilled.wf, hfilled.frame, hfilled.filled, hfilled.total⟩

end Inventory

end MistyWorld
