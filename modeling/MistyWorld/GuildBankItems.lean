import MistyWorld.GuildBank

/-!
# Items in and out of a guild bank

The places for the items of a move are found before anything is taken out, and are used after
the removals. `TabSpot` is what `BankMoveItemData::CanStore` finds out about a slot of the bank,
and `TabTakes` is what storing needs : the slot is free or has a stack with room. A spot takes
its units once the item itself, and the item it is swapped with, are out of the bank.

Between its removal and its storing an item is aside : neither in the bank nor in the inventory.
`TakenOut` says what a removal does and `Stored` what a store does.
-/

open Word FirstFit Finset

namespace MistyWorld

/-! ## Guids that stay away from an inventory -/

variable {it' : Item}

namespace Inventory

variable {env : ItemEnv} {inv inv' : Inventory} {it : Item} {p : Pos} {o : Option Item} {n g : ℕ}

/-- The guid was handed out and is in no cell. -/
structure Away (inv : Inventory) (g : ℕ) : Prop where
  absent : ∀ {c it'}, inv.cells c = some it' → it'.guid ≠ g
  handed : g < inv.nextGuid

/-- The guid stays away, and a bag with this guid keeps what it carries. -/
structure LeavesAway (inv : Inventory) (g : ℕ) (inv' : Inventory) : Prop where
  away : inv'.Away g
  carried : ∀ j, inv'.cells (.bagSlot g j) = inv.cells (.bagSlot g j)

theorem Away.refl (h : inv.Away g) : LeavesAway inv g inv :=
  ⟨h, fun _ => rfl⟩

theorem LeavesAway.trans {inv'' : Inventory} (h : LeavesAway inv g inv')
    (h' : LeavesAway inv' g inv'') : LeavesAway inv g inv'' :=
  ⟨h'.away, fun j => (h'.carried j).trans (h.carried j)⟩

theorem Away.bump (h : inv.Away g) : LeavesAway inv g inv.bump :=
  ⟨⟨h.absent, Nat.lt_succ_of_lt h.handed⟩, fun _ => rfl⟩

theorem Away.put (h : inv.Away g) (ho : ∀ new, o = some new → new.guid ≠ g) :
    LeavesAway inv g (inv.put env p o) := by
  refine ⟨⟨fun hc => ?_, h.handed⟩, fun j => ?_⟩
  · rcases put_cells hc with ⟨-, hnew⟩ | ⟨-, hold⟩
    · exact ho _ hnew
    · exact h.absent hold
  · refine Function.update_of_ne (fun hc => ?_) _ _
    unfold cellOf at hc
    split at hc
    · rename_i b hb
      split_ifs at hb
      obtain ⟨hg, -⟩ := Cell.bagSlot.inj hc
      exact h.absent (getBagByPos_eq_some hb).2.1 hg.symm
    · cases hc

theorem Away.removeItem (h : inv.Away g) (p : Pos) : LeavesAway inv g (inv.removeItem env p) := by
  unfold Inventory.removeItem
  split_ifs
  · exact h.put fun _ hc => nomatch hc
  · exact h.refl

theorem cloneItem_eq_some {new : Item} (h : inv.cloneItem env it n = some (new, inv')) :
    inv' = inv.bump ∧ new.guid = inv.nextGuid ∧ new.entry = it.entry := by
  unfold cloneItem createItem at h
  split_ifs at h
  · cases h
  · obtain ⟨⟨new', inv''⟩, hnew, heq⟩ := Option.map_eq_some_iff.1 h
    obtain ⟨proto, -, hproto⟩ := Option.map_eq_some_iff.1 hnew
    cases hproto
    cases heq
    exact ⟨rfl, rfl, rfl⟩

theorem Away.storeItemAt (h : inv.Away g) (hg : it.guid ≠ g) (p : Pos) (n : ℕ) (clone : Bool) :
    LeavesAway inv g (inv.storeItemAt env p it n clone).2 := by
  unfold Inventory.storeItemAt
  cases hget : inv.getItemByPos env p with
  | some item2 =>
    have hcell := hget
    rw [(usable_of_getItemByPos hget).getItemByPos_eq] at hcell
    refine h.put fun new hnew => ?_
    cases hnew
    simpa using h.absent hcell
  | none =>
    generalize hc : (if clone then inv.cloneItem env it n else some ({ it with count := n }, inv)) = r
    rcases r with - | ⟨new, inv1⟩
    · exact h.refl
    have hnew : LeavesAway inv g inv1 ∧ new.guid ≠ g := by
      cases clone with
      | false =>
        cases hc
        exact ⟨h.refl, hg⟩
      | true =>
        obtain ⟨rfl, hguid, -⟩ := cloneItem_eq_some hc
        exact ⟨h.bump, by have := h.handed; omega⟩
    have hput : LeavesAway inv g
        (inv1.put env p (some ((env.bindItem p new).giveTo inv.owner))) := by
      refine hnew.1.trans (hnew.1.away.put fun x hx => ?_)
      cases hx
      simpa [Item.giveTo] using hnew.2
    simp only
    split
    · exact hput
    · split_ifs
      · exact hnew.1
      · exact hput

theorem Away.storeItem (hg : it.guid ≠ g) :
    ∀ (dest : List (Pos × ℕ)) {inv : Inventory}, inv.Away g →
      LeavesAway inv g (storeItem env it dest inv).2
  | [], _, h => h.refl
  | [(p, n)], _, h => h.storeItemAt hg p n false
  | (p, n) :: d :: dest, _, h => by
    have hfirst : LeavesAway _ g (Inventory.storeItemAt env _ p it n true).2 :=
      h.storeItemAt hg p n true
    exact hfirst.trans (Away.storeItem hg (d :: dest) hfirst.away)

/-- An item in a stack within bounds that is outside the inventory and carries nothing. -/
structure Outside (env : ItemEnv) (inv : Inventory) (it : Item) : Prop where
  stack : env.StackOk it
  away : inv.Away it.guid
  empty : inv.isNotEmptyBag env it = false

theorem Outside.loose (h : Outside env inv it) : Loose env inv it :=
  ⟨h.away.absent, h.away.handed, h.stack.imp fun _ hproto => hproto.1⟩

theorem Outside.leaves (h : Outside env inv it) (hl : LeavesAway inv it.guid inv') :
    Outside env inv' it :=
  ⟨h.stack, hl.away, (isNotEmptyBag_congr hl.carried).trans h.empty⟩

theorem isNotEmptyBag_of_entry (hg : it'.guid = it.guid) (he : it'.entry = it.entry) :
    inv.isNotEmptyBag env it' = inv.isNotEmptyBag env it := by
  simp only [isNotEmptyBag, ItemEnv.isBag, ItemEnv.bagSize, hg, he]

theorem Outside.of_entry (h : Outside env inv it) (hg : it'.guid = it.guid)
    (he : it'.entry = it.entry) (hstack : env.StackOk it') : Outside env inv it' :=
  ⟨hstack, hg ▸ h.away, (isNotEmptyBag_of_entry hg he).trans h.empty⟩

end Inventory

/-! ## Items of a guild bank -/

namespace GuildBank

open Inventory

variable {env : ItemEnv} {b b' : GuildBank} {mover : Mover} {it new : Item} {p : Pos} {n : ℕ}
  {proto : ItemTemplate} {o : Option Item}

/-- The slot exists. -/
def InRange (b : GuildBank) (p : Pos) : Prop :=
  p.1 < b.guild.purchasedTabs ∧ p.2 < guildBankMaxSlots

/-- The slots of the bank. -/
def slots (b : GuildBank) : Finset Pos :=
  range b.guild.purchasedTabs ×ˢ range guildBankMaxSlots

/-- The units of an entry over the bank and the inventory. -/
def allUnits (env : ItemEnv) (b : GuildBank) (entry : ℕ) : ℕ :=
  ∑ p ∈ b.slots, units entry (b.tabs p) + total entry (b.inv.getItemByPos env)

/-- Every stack of the bank and of the inventory is within bounds and has a guid of its own, and no
bag in the bank carries items. -/
structure WF (env : ItemEnv) (b : GuildBank) : Prop where
  inv : b.inv.WF env
  inRange : ∀ {p it}, b.tabs p = some it → b.InRange p
  outside : ∀ {p it}, b.tabs p = some it → Inventory.Outside env b.inv it
  guid : ∀ {p q it it'}, b.tabs p = some it → b.tabs q = some it' → it.guid = it'.guid → p = q

/-- The item is neither in the bank nor in the inventory. -/
structure Aside (env : ItemEnv) (b : GuildBank) (it : Item) : Prop extends
    Inventory.Outside env b.inv it where
  absent : ∀ {p it'}, b.tabs p = some it' → it'.guid ≠ it.guid

theorem mem_slots : p ∈ b.slots ↔ b.InRange p := by
  simp [slots, InRange]

theorem getItem_of_inRange (h : b.InRange p) : b.getItem p = b.tabs p :=
  if_pos h

theorem WF.getItem_eq (hw : b.WF env) (p : Pos) : b.getItem p = b.tabs p := by
  unfold getItem
  split_ifs with h
  · rfl
  · cases hp : b.tabs p with
    | none => rfl
    | some it => exact absurd (hw.inRange hp) h

theorem setItem_of_inRange (h : b.InRange p) (o : Option Item) :
    b.setItem p o = b.put p (o.map fun it => it.giveTo 0) :=
  if_pos h

theorem tabs_put {q : Pos} (h : (b.put p o).tabs q = some it') :
    (q = p ∧ o = some it') ∨ (q ≠ p ∧ b.tabs q = some it') := by
  by_cases hq : q = p
  · subst hq
    exact .inl ⟨rfl, by simpa [put] using h⟩
  · exact .inr ⟨hq, by simpa [put, Function.update_of_ne hq] using h⟩

theorem allUnits_put (env : ItemEnv) (hp : b.InRange p) (o : Option Item) (entry : ℕ) :
    (b.put p o).allUnits env entry + units entry (b.tabs p) =
      b.allUnits env entry + units entry o := by
  have hsum := Finset.sum_update_add (mem_slots.2 hp) (fun _ => units entry) b.tabs o
  simp only [allUnits, put, slots] at hsum ⊢
  omega

/-- Writing a slot of the bank with an item that is nowhere else. -/
theorem WF.put (hw : b.WF env) (hp : b.InRange p)
    (h : ∀ new, o = some new → Inventory.Outside env b.inv new ∧
      ∀ q it', b.tabs q = some it' → it'.guid = new.guid → q = p) : (b.put p o).WF env := by
  refine ⟨hw.inv, fun hq => ?_, fun hq => ?_, fun hq hr hg => ?_⟩
  · rcases tabs_put hq with ⟨rfl, -⟩ | ⟨-, hq⟩
    · exact hp
    · exact hw.inRange hq
  · rcases tabs_put hq with ⟨-, ho⟩ | ⟨-, hq⟩
    · exact (h _ ho).1
    · exact hw.outside hq
  · rcases tabs_put hq with ⟨hqp, ho⟩ | ⟨hne, hq⟩ <;>
      rcases tabs_put hr with ⟨hrp, ho'⟩ | ⟨hne', hr⟩
    · rw [hqp, hrp]
    · exact absurd ((h _ ho).2 _ _ hr hg.symm) hne'
    · exact absurd ((h _ ho').2 _ _ hq hg) hne
    · exact hw.guid hq hr hg

theorem Aside.put (h : Aside env b it) (ho : ∀ new, o = some new → new.guid ≠ it.guid) :
    Aside env (b.put p o) it := by
  refine ⟨h.toOutside, fun hq => ?_⟩
  rcases tabs_put hq with ⟨-, hnew⟩ | ⟨-, hq⟩
  · exact ho _ hnew
  · exact h.absent hq

/-- The bank with another inventory. -/
def withInv (b : GuildBank) (inv : Inventory) : GuildBank :=
  { b with inv }

theorem WF.withInv {inv : Inventory} (hw : b.WF env) (hinv : inv.WF env)
    (hl : ∀ {p it}, b.tabs p = some it → LeavesAway b.inv it.guid inv) : (b.withInv inv).WF env :=
  ⟨hinv, hw.inRange, fun hp => (hw.outside hp).leaves (hl hp), hw.guid⟩

theorem Aside.withInv {inv : Inventory} (h : Aside env b it)
    (hl : LeavesAway b.inv it.guid inv) : Aside env (b.withInv inv) it :=
  ⟨h.toOutside.leaves hl, h.absent⟩

theorem WF.bump (hw : b.WF env) : (b.withInv b.inv.bump).WF env :=
  hw.withInv hw.inv.bump fun hp => (hw.outside hp).away.bump

theorem Aside.bump (h : Aside env b it) : Aside env (b.withInv b.inv.bump) it :=
  h.withInv h.away.bump

/-! ## Storing in the bank -/

/-- The slot takes `n` units of the item : it is free, or has a stack with room for them. -/
structure TabTakes (env : ItemEnv) (b : GuildBank) (it : Item) (p : Pos) (n : ℕ) : Prop where
  inRange : b.InRange p
  one_le : 1 ≤ n
  le_max : ∀ proto, env.template it.entry = some proto →
    units it.entry (b.tabs p) + n ≤ proto.getMaxStackSize
  same : ∀ d, b.tabs p = some d → d.entry = it.entry

/-- What writing the units into one slot of the bank does. -/
structure WrittenIn (env : ItemEnv) (b : GuildBank) (it : Item) (p : Pos) (n : ℕ)
    (b' : GuildBank) : Prop where
  wf : b'.WF env
  total : ∀ entry, b'.allUnits env entry =
    b.allUnits env entry + if entry = it.entry then n else 0
  frame : ∀ q ≠ p, b'.tabs q = b.tabs q
  inRange : ∀ q, b'.InRange q ↔ b.InRange q

/-- What storing at one slot of the bank does. With `clone` the item itself stays aside. -/
structure StoredIn (env : ItemEnv) (b : GuildBank) (it : Item) (p : Pos) (n : ℕ) (clone : Bool)
    (b' : GuildBank) : Prop extends WrittenIn env b it p n b' where
  aside : ∀ it', Aside env b it' → (it'.guid = it.guid → clone = true) → Aside env b' it'

theorem put_writtenIn (hw : b.WF env) (ht : TabTakes env b it p n) (hentry : new.entry = it.entry)
    (hcount : new.count = units it.entry (b.tabs p) + n) (hout : Inventory.Outside env b.inv new)
    (hguid : ∀ q it', b.tabs q = some it' → it'.guid = new.guid → q = p) :
    WrittenIn env b it p n (b.put p (some new)) := by
  refine ⟨hw.put ht.inRange fun x hx => ?_, fun entry => ?_,
    fun q hq => Function.update_of_ne hq _ _, fun _ => .rfl⟩
  · cases hx
    exact ⟨hout, hguid⟩
  · have hput := allUnits_put env ht.inRange (some new) entry
    have hunits : units entry (some new) =
        units entry (b.tabs p) + if entry = it.entry then n else 0 := by
      by_cases he : entry = it.entry
      · simp [units, hentry, he, hcount]
      · have hold : units entry (b.tabs p) = 0 := by
          cases hd : b.tabs p with
          | none => rfl
          | some d => simp [units, ht.same d hd, Ne.symm he]
        rw [hold, if_neg he, units, hentry, if_neg (Ne.symm he)]
    omega

theorem storeItemAt_merged {d : Item} (hw : b.WF env) (ht : TabTakes env b it p n)
    (hproto : env.template it.entry = some proto) (hd : b.tabs p = some d) (clone : Bool) :
    StoredIn env b it p n clone (b.storeItemAt env p it n clone) := by
  have hsame := ht.same d hd
  have hone := ht.one_le
  have hle := ht.le_max proto hproto
  have hmax := proto.getMaxStackSize_lt
  rw [hd, units, if_pos hsame] at hle
  have hcount : toU32 (d.count + n : ℕ) = d.count + n := toU32_of_lt (by omega)
  have heq : b.storeItemAt env p it n clone =
      b.put p (some { d with count := d.count + n }) := by
    simp only [storeItemAt, getItem_of_inRange ht.inRange, hd, hcount]
  have hok : env.StackOk { d with count := d.count + n } :=
    ⟨proto, hsame ▸ hproto, Nat.le_add_left_of_le hone, hle⟩
  rw [heq]
  refine ⟨put_writtenIn hw ht hsame (by rw [hd, units, if_pos hsame])
    ((hw.outside hd).of_entry rfl rfl hok) fun q it' hq hg => hw.guid hq hd hg,
    fun it' ha' _ => ha'.put fun x hx => ?_⟩
  cases hx
  have hne := ha'.absent hd
  exact hne

theorem storeItemAt_moved (hw : b.WF env) (ha : Aside env b it) (ht : TabTakes env b it p n)
    (hproto : env.template it.entry = some proto) (hd : b.tabs p = none) :
    StoredIn env b it p n false (b.storeItemAt env p it n false) := by
  have hle := ht.le_max proto hproto
  rw [hd, units, zero_add] at hle
  have heq : b.storeItemAt env p it n false =
      b.put p (some ({ it with count := n }.giveTo 0)) := by
    simp only [storeItemAt, getItem_of_inRange ht.inRange, hd, Bool.false_eq_true, if_false]
    exact setItem_of_inRange ht.inRange _
  have hok : env.StackOk ({ it with count := n }.giveTo 0) := ⟨proto, hproto, ht.one_le, hle⟩
  rw [heq]
  refine ⟨put_writtenIn hw ht rfl (by simp [hd, units, Item.giveTo])
    (ha.toOutside.of_entry rfl rfl hok) fun q it' hq hg => absurd hg (ha.absent hq),
    fun it' ha' hc => ha'.put fun x hx hg => ?_⟩
  cases hx
  exact Bool.false_ne_true (hc hg.symm)

theorem storeItemAt_cloned (hw : b.WF env) (ht : TabTakes env b it p n)
    (hproto : env.template it.entry = some proto) (hd : b.tabs p = none) :
    StoredIn env b it p n true (b.storeItemAt env p it n true) := by
  have hle := ht.le_max proto hproto
  rw [hd, units, zero_add] at hle
  obtain ⟨new, hclone, hguid, hentry, hcount⟩ := cloneItem_eq b.inv hproto ht.one_le hle
  have heq : b.storeItemAt env p it n true =
      (b.withInv b.inv.bump).put p (some (new.giveTo 0)) := by
    simp only [storeItemAt, getItem_of_inRange ht.inRange, hd, if_true, hclone]
    exact setItem_of_inRange (b := b.withInv b.inv.bump) ht.inRange _
  have hok : env.StackOk (new.giveTo 0) :=
    ⟨proto, hentry.symm ▸ hproto, hcount.symm ▸ ht.one_le, hcount.symm ▸ hle⟩
  -- the guid of the clone is new
  have hbag : b.inv.isNotEmptyBag env (new.giveTo 0) = false :=
    isNotEmptyBag_fresh hw.inv.toDistinct hguid.ge
  have hout : Inventory.Outside env b.inv.bump (new.giveTo 0) :=
    ⟨hok, ⟨fun hc => hguid ▸ (hw.inv.fresh hc).ne, hguid ▸ Nat.lt_succ_self _⟩,
      hbag⟩
  have hne : ∀ {g}, g < b.inv.nextGuid → (new.giveTo 0).guid ≠ g := fun hg => hguid ▸ hg.ne'
  rw [heq]
  have hwritten : WrittenIn env (b.withInv b.inv.bump) it p n
      ((b.withInv b.inv.bump).put p (some (new.giveTo 0))) :=
    put_writtenIn hw.bump ⟨ht.inRange, ht.one_le, ht.le_max, ht.same⟩ hentry
      (by simp [withInv, hd, units, Item.giveTo, hcount]) hout
      fun q it' hq hg => absurd hg.symm (hne (hw.outside hq).away.handed)
  refine ⟨⟨hwritten.wf, hwritten.total, hwritten.frame, hwritten.inRange⟩,
    fun it' ha' _ => ha'.bump.put fun x hx => ?_⟩
  cases hx
  exact hne ha'.away.handed

theorem storeItemAt_storedIn (hw : b.WF env) (ha : Aside env b it) (ht : TabTakes env b it p n)
    (clone : Bool) : StoredIn env b it p n clone (b.storeItemAt env p it n clone) := by
  obtain ⟨proto, hproto, -⟩ := ha.stack
  cases hd : b.tabs p with
  | some d => exact storeItemAt_merged hw ht hproto hd clone
  | none =>
    cases clone with
    | false => exact storeItemAt_moved hw ha ht hproto hd
    | true => exact storeItemAt_cloned hw ht hproto hd

theorem StoredIn.takes {clone : Bool} (h : StoredIn env b it p n clone b') {q : Pos} {m : ℕ}
    (hq : q ≠ p) (ht : TabTakes env b it q m) : TabTakes env b' it q m := by
  have hsame := h.frame q hq
  exact ⟨(h.inRange q).2 ht.inRange, ht.one_le, by rw [hsame]; exact ht.le_max,
    by rw [hsame]; exact ht.same⟩

/-- What storing an item that is aside does. Other items stay aside. -/
structure Stored (env : ItemEnv) (b : GuildBank) (it : Item) (b' : GuildBank) : Prop where
  wf : b'.WF env
  total : ∀ entry, b'.allUnits env entry =
    b.allUnits env entry + if entry = it.entry then it.count else 0
  inRange : ∀ q, b'.InRange q ↔ b.InRange q
  aside : ∀ it', Aside env b it' → it'.guid ≠ it.guid → Aside env b' it'

theorem Stored.withBook (h : Stored env b it b') (book : QuestBook) :
    Stored env b it { b' with book } :=
  ⟨⟨h.wf.inv, h.wf.inRange, h.wf.outside, h.wf.guid⟩, h.total, h.inRange, fun it' ha hne =>
    ⟨(h.aside it' ha hne).toOutside, (h.aside it' ha hne).absent⟩⟩

theorem storeItems_spec :
    ∀ (dest : List (Pos × ℕ)) {b : GuildBank}, dest ≠ [] → b.WF env → Aside env b it →
      (dest.map Prod.fst).Nodup → (∀ pn ∈ dest, TabTakes env b it pn.1 pn.2) →
      (storeItems env it dest b).WF env ∧
      (∀ entry, (storeItems env it dest b).allUnits env entry =
        b.allUnits env entry + if entry = it.entry then (dest.map Prod.snd).sum else 0) ∧
      (∀ q, (storeItems env it dest b).InRange q ↔ b.InRange q) ∧
      (∀ it', Aside env b it' → it'.guid ≠ it.guid → Aside env (storeItems env it dest b) it') ∧
      ∀ q ∉ dest.map Prod.fst, (storeItems env it dest b).tabs q = b.tabs q
  | [], _, h, _, _, _, _ => absurd rfl h
  | [(p, n)], b, _, hw, ha, _, ht => by
    have hst := storeItemAt_storedIn hw ha (ht (p, n) List.mem_cons_self) false
    rw [storeItems]
    refine ⟨hst.wf, fun entry => ?_, hst.inRange, fun it' ha' hne => hst.aside it' ha' fun hg => ?_,
      fun q hq => hst.frame q (by simpa using hq)⟩
    · rw [hst.total]
      simp
    · exact absurd hg hne
  | (p, n) :: d :: dest, b, _, hw, ha, hnodup, ht => by
    have hst := storeItemAt_storedIn hw ha (ht (p, n) List.mem_cons_self) true
    rw [List.map_cons, List.nodup_cons] at hnodup
    have hne : ∀ pn ∈ d :: dest, pn.1 ≠ p := by
      intro pn hpn heq
      have hmem := List.mem_map_of_mem hpn (f := Prod.fst)
      exact hnodup.1 (heq ▸ hmem)
    obtain ⟨hw', htotal, hrange, haside, hframe⟩ := storeItems_spec (d :: dest)
      (List.cons_ne_nil _ _) hst.wf (hst.aside it ha fun _ => rfl) hnodup.2
      fun pn hpn => hst.takes (hne pn hpn) (ht pn (List.mem_cons_of_mem _ hpn))
    rw [storeItems]
    refine ⟨hw', fun entry => ?_, fun q => (hrange q).trans (hst.inRange q),
      fun it' ha' hg => haside it' (hst.aside it' ha' fun _ => rfl) hg, fun q hq => ?_⟩
    · rw [htotal, hst.total]
      split_ifs
      · simp only [List.map_cons, List.sum_cons, add_assoc]
      · rw [add_zero]
    · rw [List.map_cons, List.mem_cons, not_or] at hq
      rw [hframe q hq.2, hst.frame q hq.1]

/-! ## The places of `BankMoveItemData::CanStore` -/

/-- What the check of a slot says : the slot exists, and it is swapped, or free, or holds the item
itself, or a stack with room. -/
structure TabSpot (env : ItemEnv) (b : GuildBank) (it : Item) (want : Option Pos) (p : Pos)
    (n : ℕ) : Prop where
  inRange : b.InRange p
  one_le : 1 ≤ n
  le_max : n ≤ env.getMaxStackCount it
  room : want = some p ∨ otherItem (some it) (b.getItem p) = none ∨
    ∃ d, otherItem (some it) (b.getItem p) = some d ∧ d.entry = it.entry ∧
      d.count + n ≤ env.getMaxStackCount it

theorem getMaxStackCount_eq (h : env.template it.entry = some proto) :
    env.getMaxStackCount it = proto.getMaxStackSize := by
  rw [ItemEnv.getMaxStackCount, h]

theorem room_of_reserveSpace {want : Option Pos} {itemDest : Option Item} {space : ℕ}
    (hrange : b.InRange p) (hmax : 1 ≤ env.getMaxStackCount it)
    (hdest : want = some p ∧ itemDest = none ∨ itemDest = otherItem (some it) (b.getItem p))
    (h : reserveSpace env it itemDest = some space) :
    FirstFit.Room (TabSpot env b it want) p space := by
  unfold reserveSpace at h
  split at h
  · cases h
    refine ⟨hmax, fun n hone hle => ⟨hrange, hone, hle, ?_⟩⟩
    rcases hdest with ⟨hwant, -⟩ | hnone
    · exact .inl hwant
    · exact .inr (.inl hnone.symm)
  · rename_i d
    split_ifs at h with hno
    cases h
    rw [not_or, not_not, not_le] at hno
    have hother : otherItem (some it) (b.getItem p) = some d := by
      rcases hdest with ⟨-, hnone⟩ | hd
      · cases hnone
      · exact hd.symm
    exact ⟨by omega, fun n hone hle => ⟨hrange, hone, by omega,
      .inr (.inr ⟨d, hother, hno.1, by omega⟩)⟩⟩

section Search

variable {want : Option Pos} {tabId slotId total : ℕ} {pl : Plan Pos} {dest : List (Pos × ℕ)}

theorem canStoreItemInTab_exact (htab : tabId < b.guild.purchasedTabs)
    (hmax : 1 ≤ env.getMaxStackCount it) (h : pl.Exact (TabSpot env b it want) total)
    (hc : pl.count ≠ 0) (merge : Bool) :
    (b.canStoreItemInTab env it tabId slotId merge pl).Exact (TabSpot env b it want) total := by
  refine h.fill hc fun q hq space hspace => ?_
  obtain ⟨j, hj, rfl⟩ := List.mem_map.1 hq
  have hrange : b.InRange (tabId, j) := ⟨htab, List.mem_range.1 (List.mem_filter.1 hj).1⟩
  unfold tabSpace at hspace
  simp only at hspace
  split_ifs at hspace
  exact room_of_reserveSpace hrange hmax (.inr rfl) hspace

theorem searchTab_exact (htab : tabId < b.guild.purchasedTabs)
    (hmax : 1 ≤ env.getMaxStackCount it) (h : pl.Exact (TabSpot env b it want) total)
    (hc : pl.count ≠ 0) (hok : b.searchTab env it tabId slotId pl = .ok dest) :
    Plan.Exact (TabSpot env b it want) total ⟨dest, 0⟩ := by
  have hof : ∀ {pl' : Plan Pos}, pl'.Exact (TabSpot env b it want) total → pl'.count = 0 →
      Plan.Exact (TabSpot env b it want) total ⟨pl'.dest, 0⟩ := by
    intro pl' hexact hzero
    exact ⟨hexact.nodup, by simpa [hzero] using hexact.sum, hexact.fits⟩
  have hmerged : (if env.getMaxStackCount it > 1 then
      b.canStoreItemInTab env it tabId slotId true pl else pl).Exact (TabSpot env b it want)
        total := by
    split_ifs
    · exact canStoreItemInTab_exact htab hmax h hc true
    · exact h
  unfold searchTab at hok
  simp only at hok
  generalize (if env.getMaxStackCount it > 1 then
    b.canStoreItemInTab env it tabId slotId true pl else pl) = merged at hok hmerged
  split_ifs at hok with hzero hzero'
  · cases hok
    exact hof hmerged hzero
  · cases hok
    exact hof (canStoreItemInTab_exact htab hmax hmerged hzero false) hzero'

theorem purchasedTabs_of_lt (h : tabId < b.guild.getPurchasedTabsSize) :
    tabId < b.guild.purchasedTabs := by
  unfold Guild.getPurchasedTabsSize toU8 at h
  omega

/-- The check of a bank slot spreads the stack over distinct slots with room. -/
theorem canStoreInTab_exact {swap : Bool} (hstack : env.StackOk it)
    (hslot : slotId < guildBankMaxSlots ∨ slotId = nullSlot)
    (hok : b.canStoreInTab env it tabId slotId swap = .ok dest) :
    Plan.Exact (TabSpot env b it (if swap then some (tabId, slotId) else none)) it.count
      ⟨dest, 0⟩ := by
  obtain ⟨proto, hproto, hone, -⟩ := hstack
  have hmax : 1 ≤ env.getMaxStackCount it := by
    rw [getMaxStackCount_eq hproto]
    exact proto.getMaxStackSize_pos
  have hcount : (⟨[], it.count⟩ : Plan Pos).count ≠ 0 := Nat.one_le_iff_ne_zero.1 hone
  unfold canStoreInTab at hok
  generalize hdest : (if swap then none else otherItem (some it) (b.getItem (tabId, slotId))) =
    itemDest at hok
  split_ifs at hok with hsoul htab hnull
  · have htab' := purchasedTabs_of_lt (not_le.1 htab)
    have hrange : b.InRange (tabId, slotId) := ⟨htab', hslot.resolve_right hnull⟩
    cases hspace : reserveSpace env it itemDest with
    | none =>
      rw [hspace] at hok
      cases hok
    | some space =>
      have hroom : FirstFit.Room (TabSpot env b it (if swap then some (tabId, slotId) else none))
          (tabId, slotId) space := by
        refine room_of_reserveSpace hrange hmax ?_ hspace
        cases swap with
        | false => exact .inr hdest.symm
        | true => exact .inl ⟨rfl, hdest.symm⟩
      have hpush := (Plan.exact_nil _ it.count).push hcount hroom
      simp only [hspace] at hok
      split_ifs at hok with hzero
      · cases hok
        exact ⟨hpush.nodup, by simpa [hzero] using hpush.sum, hpush.fits⟩
      · exact searchTab_exact htab' hmax hpush hzero hok
  · exact searchTab_exact (purchasedTabs_of_lt (not_le.1 htab)) hmax (Plan.exact_nil _ _) hcount hok

/-- A swap that is asked for at a slot needs that slot only. -/
theorem canStoreInTab_swap (hstack : env.StackOk it) (hslot : slotId < guildBankMaxSlots)
    (hok : b.canStoreInTab env it tabId slotId true = .ok dest) :
    b.InRange (tabId, slotId) ∧ dest = [((tabId, slotId), it.count)] := by
  obtain ⟨proto, hproto, -, hle⟩ := hstack
  have hnull : slotId ≠ nullSlot := by
    have hlt : guildBankMaxSlots < nullSlot := by decide
    omega
  unfold canStoreInTab at hok
  rw [if_pos rfl, if_pos hnull] at hok
  split_ifs at hok with hsoul htab
  have hpush : Plan.push ⟨[], it.count⟩ (tabId, slotId) (env.getMaxStackCount it) =
      ⟨[((tabId, slotId), it.count)], 0⟩ := by
    rw [Plan.push_of_not_mem List.not_mem_nil, getMaxStackCount_eq hproto]
    simp [min_eq_right hle]
  simp only [reserveSpace, hpush, if_true] at hok
  cases hok
  exact ⟨⟨purchasedTabs_of_lt (not_le.1 htab), hslot⟩, rfl⟩

end Search

/-- A spot takes its units in a bank where the item is not, and where no stack has grown. -/
theorem TabSpot.takes {want : Option Pos} (h : TabSpot env b it want p n)
    (hstack : env.StackOk it) (hrange : ∀ q, b'.InRange q ↔ b.InRange q)
    (hbelow : ∀ d, b'.tabs p = some d →
      want ≠ some p ∧ d.guid ≠ it.guid ∧
        ∃ d0, b.tabs p = some d0 ∧ d0.guid = d.guid ∧ d0.entry = d.entry ∧ d.count ≤ d0.count) :
    TabTakes env b' it p n := by
  obtain ⟨proto, hproto, -⟩ := hstack
  have hmax := getMaxStackCount_eq hproto
  have hle := h.le_max
  have hroom : ∀ d, b'.tabs p = some d →
      d.entry = it.entry ∧ d.count + n ≤ proto.getMaxStackSize := by
    intro d hd
    obtain ⟨hwant, hguid, d0, hd0, hg, he, hc⟩ := hbelow d hd
    have hother : otherItem (some it) (b.getItem p) = some d0 := by
      rw [getItem_of_inRange h.inRange, hd0]
      refine Option.filter_eq_some_iff.2 ⟨rfl, ?_⟩
      simpa [notSource, hg] using hguid.symm
    rcases h.room with hw | hnone | ⟨d1, hd1, he1, hle1⟩
    · exact absurd hw hwant
    · rw [hother] at hnone
      cases hnone
    · rw [hother] at hd1
      cases hd1
      exact ⟨he ▸ he1, by omega⟩
  refine ⟨(hrange p).2 h.inRange, h.one_le, fun proto' hproto' => ?_, fun d hd => (hroom d hd).1⟩
  rw [hproto] at hproto'
  cases hproto'
  cases hd : b'.tabs p with
  | none =>
    rw [units, zero_add]
    omega
  | some d =>
    rw [units, if_pos (hroom d hd).1]
    exact (hroom d hd).2

/-! ## Taking items out -/

/-- What taking `n` units of an item out does. Stacks only get smaller. -/
structure TakenOut (env : ItemEnv) (b : GuildBank) (it : Item) (n : ℕ) (b' : GuildBank) : Prop where
  wf : b'.WF env
  total : ∀ entry, b'.allUnits env entry + (if entry = it.entry then n else 0) =
    b.allUnits env entry
  inRange : ∀ q, b'.InRange q ↔ b.InRange q
  below : ∀ q d, b'.tabs q = some d →
    ∃ d₀, b.tabs q = some d₀ ∧ d₀.guid = d.guid ∧ d₀.entry = d.entry ∧ d.count ≤ d₀.count
  aside : ∀ it', Aside env b it' → Aside env b' it'

theorem chargeTab_eq (b : GuildBank) (mover : Mover) (other : MoveItemData) (tabId : ℕ) :
    ∃ g : Guild, g.purchasedTabs = b.guild.purchasedTabs ∧
      b.chargeTab mover other tabId = { b with guild := g } := by
  unfold chargeTab
  split_ifs
  · exact ⟨b.guild, rfl, rfl⟩
  · refine ⟨_, ?_, rfl⟩
    unfold Guild.updateMemberWithdrawSlots
    split
    · rfl
    · split_ifs <;> rfl

theorem TakenOut.withBook (h : TakenOut env b it n b') (book : QuestBook) :
    TakenOut env b it n { b' with book } :=
  ⟨⟨h.wf.inv, h.wf.inRange, h.wf.outside, h.wf.guid⟩, h.total, h.inRange, h.below, fun it' ha =>
    ⟨(h.aside it' ha).toOutside, (h.aside it' ha).absent⟩⟩

/-- Charging a tab moves no item. -/
theorem TakenOut.charge (h : TakenOut env b it n b') (mover : Mover) (other : MoveItemData)
    (tabId : ℕ) : TakenOut env b it n (b'.chargeTab mover other tabId) := by
  obtain ⟨g, htabs, heq⟩ := chargeTab_eq b' mover other tabId
  have hrange : ∀ q, ({ b' with guild := g } : GuildBank).InRange q ↔ b'.InRange q := by
    intro q
    simp only [InRange, htabs]
  rw [heq]
  refine ⟨⟨h.wf.inv, fun hq => (hrange _).2 (h.wf.inRange hq), h.wf.outside, h.wf.guid⟩,
    fun entry => ?_, fun q => (hrange q).trans (h.inRange q), h.below,
    fun it' ha => ⟨(h.aside it' ha).toOutside, (h.aside it' ha).absent⟩⟩
  have htotal := h.total entry
  simp only [allUnits, slots, htabs] at htotal ⊢
  exact htotal

theorem WF.takeOut_tab (hw : b.WF env) (h : b.tabs p = some it) :
    TakenOut env b it it.count (b.put p none) ∧ Aside env (b.put p none) it := by
  have hrange := hw.inRange h
  have hold : ∀ {q d}, (b.put p none).tabs q = some d → q ≠ p ∧ b.tabs q = some d := by
    intro q d hq
    rcases tabs_put hq with ⟨-, hc⟩ | hq
    · cases hc
    · exact hq
  have hno : ∀ {P : Item → Prop} (x : Item), (none : Option Item) = some x → P x :=
    fun _ hc => nomatch hc
  refine ⟨⟨hw.put hrange hno, fun entry => ?_, fun _ => .rfl,
    fun q d hq => ⟨d, (hold hq).2, rfl, rfl, le_rfl⟩, fun it' ha => ha.put hno⟩,
    ⟨hw.outside h, fun hq hg => (hold hq).1 (hw.guid (hold hq).2 h hg)⟩⟩
  have hput := allUnits_put env hrange none entry
  simp only [h, units, eq_comm (a := it.entry)] at hput
  rw [hput, add_zero]

theorem add_eq_of_add_eq_add_sub {m k c n : ℕ} (hn : n ≤ c) (h : m + c = k + (c - n)) :
    m + n = k := by
  omega

theorem WF.takePart_tab (hw : b.WF env) (h : b.tabs p = some it) (hn : n < it.count) :
    TakenOut env b it n (b.put p (some { it with count := it.count - n })) := by
  obtain ⟨proto, hproto, -, hle⟩ := (hw.outside h).stack
  have hrange := hw.inRange h
  have hok : env.StackOk { it with count := it.count - n } :=
    ⟨proto, hproto, Nat.sub_pos_of_lt hn, (Nat.sub_le _ _).trans hle⟩
  refine ⟨hw.put hrange fun x hx => ?_, fun entry => ?_, fun _ => .rfl, fun q d hq => ?_,
    fun it' ha => ha.put fun x hx => ?_⟩
  · cases hx
    exact ⟨(hw.outside h).of_entry rfl rfl hok, fun q it' hq hg => hw.guid hq h hg⟩
  · have hput := allUnits_put env hrange (some { it with count := it.count - n }) entry
    simp only [h, units, eq_comm (a := it.entry)] at hput
    split_ifs at hput ⊢
    · exact add_eq_of_add_eq_add_sub hn.le hput
    · simpa only [add_zero] using hput
  · rcases tabs_put hq with ⟨rfl, hnew⟩ | ⟨-, hq⟩
    · cases hnew
      exact ⟨it, h, rfl, rfl, Nat.sub_le _ _⟩
    · exact ⟨d, hq, rfl, rfl, le_rfl⟩
  · cases hx
    have hne := ha.absent h
    exact hne

theorem total_removeItem (hw : b.inv.WF env) (h : b.inv.getItemByPos env p = some it)
    (hempty : b.inv.isNotEmptyBag env it = false) (entry : ℕ) :
    total entry ((b.inv.removeItem env p).getItemByPos env) + (if entry = it.entry then it.count else 0) =
      total entry (b.inv.getItemByPos env) := by
  have htotal := Inventory.total_removeItem hw.toDistinct h entry fun _ =>
    carried_of_empty hempty entry
  simpa only [units, eq_comm (a := it.entry)] using htotal

theorem WF.takeOut_inventory (hw : b.WF env) (h : b.inv.getItemByPos env p = some it)
    (hempty : b.inv.isNotEmptyBag env it = false) :
    TakenOut env b it it.count (b.withInv (b.inv.removeItem env p)) ∧
      Aside env (b.withInv (b.inv.removeItem env p)) it := by
  have hcell := h
  rw [(usable_of_getItemByPos h).getItemByPos_eq] at hcell
  have hl : Loose env (b.inv.removeItem env p) it :=
    @SourceAt.loose env b.inv (some it) (some p) none (SourceAt.held it p h) hw.inv it rfl
  refine ⟨⟨hw.withInv (hw.inv.removeItem p) fun hq => (hw.outside hq).away.removeItem p,
    fun entry => ?_, fun _ => .rfl, fun q d hq => ⟨d, hq, rfl, rfl, le_rfl⟩,
    fun it' ha => ha.withInv (ha.away.removeItem p)⟩,
    ⟨⟨hw.inv.stack_pos h, ⟨hl.absent, hl.guid⟩, ?_⟩,
      fun hq hg => (hw.outside hq).away.absent hcell hg.symm⟩⟩
  · have htotal := total_removeItem hw.inv h hempty entry
    simp only [allUnits, GuildBank.withInv, slots] at htotal ⊢
    omega
  · have hbag : ¬ (b.inv.takeOut env (some p)).isNotEmptyBag env it = true := fun hc => by
      rw [isNotEmptyBag_of_takeOut hc] at hempty
      cases hempty
    simpa [GuildBank.withInv, Inventory.takeOut] using hbag

theorem WF.takePart_inventory (hw : b.WF env) (h : b.inv.getItemByPos env p = some it)
    (hn : n < it.count) :
    TakenOut env b it n
      (b.withInv (b.inv.put env p (some { it with count := it.count - n }))) := by
  obtain ⟨proto, hproto, -, hle⟩ := hw.inv.stack_pos h
  have hok : env.StackOk { it with count := it.count - n } :=
    ⟨proto, hproto, Nat.sub_pos_of_lt hn, (Nat.sub_le _ _).trans hle⟩
  have huse := usable_of_getItemByPos h
  have hcell := h
  rw [huse.getItemByPos_eq] at hcell
  have hleaves : ∀ {g}, b.inv.Away g → LeavesAway b.inv g
      (b.inv.put env p (some { it with count := it.count - n })) := by
    intro g hg
    refine hg.put fun x hx => ?_
    cases hx
    have hne := hg.absent hcell
    exact hne
  refine ⟨hw.withInv (hw.inv.replace h rfl hok) fun hq => hleaves (hw.outside hq).away,
    fun entry => ?_, fun _ => .rfl, fun q d hq => ⟨d, hq, rfl, rfl, le_rfl⟩,
    fun it' ha => ha.withInv (hleaves ha.away)⟩
  have htotal := total_replace hw.inv.toDistinct h { it with count := it.count - n } rfl rfl entry
  simp only [units, eq_comm (a := it.entry)] at htotal
  simp only [allUnits, GuildBank.withInv, slots]
  split_ifs at htotal ⊢ <;> omega

end GuildBank

end MistyWorld
