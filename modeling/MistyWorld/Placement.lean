import MistyWorld.Store

/-!
# Checked placement

`CanStoreItem` computes destinations on the inventory as it is. `StoreItem` then works on an
inventory where the source has been taken out of its slot and, for a swap, what was at the requested
slot has been taken out too (`taken`). `canStoreItem_exact` says that the destinations are right for
that inventory : the units asked for are added, no other slot changes, and all stacks stay within
bounds. A filled bag brings what it carries with it (`brought`).

`CanStoreItem` leaves it to its callers to take the swapped item out. If it is left in its slot,
`StoreItem` adds the units to it, whatever its entry (`storeItem_onto_swapped`).
-/

open Option Function Word FirstFit Finset

namespace MistyWorld

namespace Inventory

variable {env : ItemEnv} {inv : Inventory} {p q : Pos} {it : Item} {c : Cell}

/-! ## Taking items out -/

theorem getItemByPos_removeItem_self (p : Pos) : (inv.removeItem env p).getItemByPos env p = none := by
  unfold removeItem
  split_ifs with h
  · obtain ⟨it, hit⟩ := isSome_iff_exists.1 h
    exact getItemByPos_put_self (usable_of_getItemByPos hit) none
  · simpa using h

theorem getItemByPos_removeItem_of_ne (hw : inv.Distinct) (hne : q ≠ p)
    (hbag : isBagPos p = true → q.1 ≠ p.2) :
    (inv.removeItem env p).getItemByPos env q = inv.getItemByPos env q := by
  unfold removeItem
  split_ifs with h
  · obtain ⟨it, hit⟩ := isSome_iff_exists.1 h
    exact getItemByPos_put_of_ne hw (usable_of_getItemByPos hit) none hne hbag
  · rfl

/-- The position is in a bag that is at `p`. -/
def InBagAt (env : ItemEnv) (inv : Inventory) (q p : Pos) : Prop :=
  (inv.getBagByPos env q.1).isSome ∧ p = (inventorySlotBag0, q.1)

theorem usable_removeItem (hq : Usable env inv q) (hin : ¬ InBagAt env inv q p) :
    Usable env (inv.removeItem env p) q := by
  unfold removeItem
  split_ifs with h
  · obtain ⟨it, hit⟩ := isSome_iff_exists.1 h
    rcases hq with htop | ⟨b, hb, hj⟩
    · exact .inl htop
    refine .inr ⟨b, ?_, hj⟩
    rw [getBagByPos_put, hb]
    refine cellOf_ne_slot (usable_of_getItemByPos hit) (getBagByPos_eq_some hb).1 fun hbp heq => ?_
    simp only [isBagPos, Bool.and_eq_true, decide_eq_true_eq] at hbp
    exact hin ⟨by simp [hb], Prod.ext hbp.1 heq.symm⟩
  · exact hq

theorem getItemByPos_removeItem (hw : inv.Distinct) (hq : Usable env inv q)
    (hin : ¬ InBagAt env inv q p) :
    (inv.removeItem env p).getItemByPos env q =
      if q = p then none else inv.getItemByPos env q := by
  split_ifs with heq
  · rw [heq, getItemByPos_removeItem_self]
  · refine getItemByPos_removeItem_of_ne hw heq fun hbp hc => ?_
    rcases hq with htop | ⟨b, hb, -⟩
    · -- the slot of a bag is no bag itself
      simp only [isBagPos, Bool.and_eq_true, decide_eq_true_eq] at hbp
      exact ne_bag0_of_isBagSlot hbp.2 (hc.symm.trans htop.1)
    · simp only [isBagPos, Bool.and_eq_true, decide_eq_true_eq] at hbp
      exact hin ⟨by simp [hb], Prod.ext hbp.1 hc.symm⟩

theorem not_inBagAt_removeItem {r : Pos} (h : ¬ InBagAt env inv q p) :
    ¬ InBagAt env (inv.removeItem env r) q p := by
  intro hc
  refine h ⟨?_, hc.2⟩
  obtain ⟨b, hb⟩ := isSome_iff_exists.1 hc.1
  obtain ⟨hslot, hcell, hbag⟩ := getBagByPos_eq_some hb
  have hcell' : inv.cells (.slot q.1) = some b := by
    unfold removeItem at hcell
    split_ifs at hcell with hr
    · by_cases hs : Cell.slot q.1 = inv.cellOf env r
      · simp only [put, hs, update_self] at hcell
        cases hcell
      · simpa only [put, update_of_ne hs] using hcell
    · exact hcell
  rw [getBagByPos_of_cells hslot hcell' hbag]
  rfl

theorem removeItem_nextGuid (p : Pos) : (inv.removeItem env p).nextGuid = inv.nextGuid := by
  unfold removeItem
  split_ifs <;> rfl

theorem cells_removeItem (h : (inv.removeItem env p).cells c = some it) :
    inv.cells c = some it := by
  unfold removeItem at h
  split_ifs at h with hp
  · by_cases hc : c = inv.cellOf env p
    · simp only [put, hc, update_self] at h
      cases h
    · simpa only [put, update_of_ne hc] using h
  · exact h

/-! ## The source -/

variable {src : Option Item} {srcPos want pos : Option Pos} {proto : ItemTemplate} {asked : Pos}

/-- Where the source is : there is none, it is at a position, or it is outside the inventory. -/
inductive SourceAt (env : ItemEnv) (inv : Inventory) : Option Item → Option Pos → Prop
  | new : SourceAt env inv none none
  | held (s : Item) (p : Pos) (hget : inv.getItemByPos env p = some s) :
    SourceAt env inv (some s) (some p)
  | outside (s : Item) (hl : Loose env inv s) : SourceAt env inv (some s) none

/-- Take out what is at a position, if one is given. -/
def takeOut (env : ItemEnv) (inv : Inventory) (pos : Option Pos) : Inventory :=
  match pos with
  | some p => inv.removeItem env p
  | none => inv

/-- The inventory that `StoreItem` works on : the source is taken out, and what will be swapped. -/
def taken (env : ItemEnv) (inv : Inventory) (srcPos want : Option Pos) : Inventory :=
  (inv.takeOut env srcPos).takeOut env want

theorem WF.takeOut (hw : inv.WF env) (pos : Option Pos) : (inv.takeOut env pos).WF env := by
  cases pos with
  | none => exact hw
  | some p => exact hw.removeItem p

theorem cells_takeOut (h : (inv.takeOut env pos).cells c = some it) : inv.cells c = some it := by
  cases pos with
  | none => exact h
  | some p => exact cells_removeItem h

theorem takeOut_nextGuid (pos : Option Pos) : (inv.takeOut env pos).nextGuid = inv.nextGuid := by
  cases pos with
  | none => rfl
  | some p => exact removeItem_nextGuid p

theorem usable_takeOut (hq : Usable env inv q) (hin : ∀ p, pos = some p → ¬ InBagAt env inv q p) :
    Usable env (inv.takeOut env pos) q := by
  cases pos with
  | none => exact hq
  | some p => exact usable_removeItem hq (hin p rfl)

theorem getItemByPos_takeOut (hw : inv.Distinct) (hq : Usable env inv q)
    (hin : ∀ p, pos = some p → ¬ InBagAt env inv q p) :
    (inv.takeOut env pos).getItemByPos env q =
      if pos = some q then none else inv.getItemByPos env q := by
  cases pos with
  | none => rfl
  | some p =>
    rw [takeOut, getItemByPos_removeItem hw hq (hin p rfl)]
    simp only [some.injEq, eq_comm]

theorem not_inBagAt_takeOut (h : ¬ InBagAt env inv q p) :
    ¬ InBagAt env (inv.takeOut env pos) q p := by
  cases pos with
  | none => exact h
  | some r => exact not_inBagAt_removeItem h

/-- The source is loose once it is taken out. -/
theorem SourceAt.loose (h : SourceAt env inv src srcPos) (hw : inv.WF env) {s : Item}
    (hs : src = some s) : Loose env (inv.taken env srcPos want) s := by
  have hnext : (inv.taken env srcPos want).nextGuid = inv.nextGuid := by
    rw [taken, takeOut_nextGuid, takeOut_nextGuid]
  cases h with
  | new => cases hs
  | outside s' hl =>
    cases hs
    exact ⟨fun hc => hl.absent (cells_takeOut (cells_takeOut hc)), hnext ▸ hl.guid, hl.template⟩
  | held s' p hget =>
    cases hs
    obtain ⟨proto, hproto, -⟩ := hw.stack_pos hget
    refine ⟨fun {c it'} hc hg => ?_, hnext ▸ hw.fresh_pos hget, proto, hproto⟩
    have hc' := cells_takeOut hc
    have hu := usable_of_getItemByPos hget
    have hcell := hget
    rw [hu.getItemByPos_eq] at hcell
    have hceq := hw.guid (cells_takeOut hc') hcell hg
    have hcells : (inv.takeOut env (some p)).cells c = none := by
      simp only [takeOut, removeItem, hget, isSome_some, if_true, put, hceq,
        update_self]
    rw [hcells] at hc'
    cases hc'

/-- The source is known by its guid. -/
theorem SourceAt.eq_of_guid {s b : Item} (h : SourceAt env inv (some s) srcPos) (hw : inv.WF env)
    (hc : inv.cells c = some b) (hg : b.guid = s.guid) : b = s := by
  cases h with
  | outside _ hl => exact absurd hg (hl.absent hc)
  | held _ p hget =>
    rw [(usable_of_getItemByPos hget).getItemByPos_eq] at hget
    have hceq := hw.guid hc hget hg
    rw [hceq, hget] at hc
    exact (some.inj hc).symm

/-- A position of the plan takes its units once the source is taken out. -/
theorem Spot.takes {n : ℕ} (h : Spot env inv proto src want asked p n) (hw : inv.WF env)
    (hsrc : SourceAt env inv src srcPos) (hproto : env.template it.entry = some proto)
    (hself : ∀ b, inv.getBagByPos env p.1 = some b → notSource src b = true)
    (hwant : ∀ w, want = some w → ¬ InBagAt env inv p w) :
    Takes env (inv.taken env srcPos want) it p n := by
  have hin : ∀ r, srcPos = some r → ¬ InBagAt env inv p r := by
    rintro r hr ⟨hb, rfl⟩
    obtain ⟨b, hb⟩ := isSome_iff_exists.1 hb
    cases hsrc with
    | new => cases hr
    | outside => cases hr
    | held s p' hget =>
      cases hr
      rw [getItemByPos_of_bag hb] at hget
      cases hget
      simpa [notSource] using hself b hb
  have hu1 := usable_takeOut h.usable hin
  have hin2 : ∀ w, want = some w → ¬ InBagAt env (inv.takeOut env srcPos) p w :=
    fun w hw' => not_inBagAt_takeOut (hwant w hw')
  have hget : (inv.taken env srcPos want).getItemByPos env p =
      if want = some p then none else if srcPos = some p then none else inv.getItemByPos env p := by
    rw [taken, getItemByPos_takeOut (hw.takeOut srcPos).toDistinct hu1 hin2,
      getItemByPos_takeOut hw.toDistinct h.usable hin]
  have hid : proto.itemId = it.entry := env.template_id hproto
  have hroom : (inv.taken env srcPos want).getItemByPos env p = none ∨
      ∃ item2, (inv.taken env srcPos want).getItemByPos env p = some item2 ∧
        item2.entry = it.entry ∧ item2.count + n ≤ proto.getMaxStackSize := by
    by_cases hwp : want = some p
    · exact .inl (by rw [hget, if_pos hwp])
    by_cases hsp : srcPos = some p
    · exact .inl (by rw [hget, if_neg hwp, if_pos hsp])
    rw [hget, if_neg hwp, if_neg hsp]
    rcases h.room with hnone | hwant' | ⟨item2, hother, hentry, hle⟩
    · refine .inl ?_
      cases hp : inv.getItemByPos env p with
      | none => rfl
      | some x =>
        -- the source itself would be here, and then it would be its position
        rw [hp] at hnone
        exfalso
        cases hsrc with
        | new => simp [otherItem, notSource, Option.filter] at hnone
        | outside s hl =>
          have hx := hp
          rw [(usable_of_getItemByPos hp).getItemByPos_eq] at hx
          have hne := hl.absent hx
          simp [otherItem, notSource, Option.filter, hne.symm] at hnone
        | held s p' hs =>
          have hg : s.guid = x.guid := by
            by_contra hne
            simp [otherItem, notSource, Option.filter, hne] at hnone
          exact hsp (by rw [hw.pos_unique hs hp hg])
    · exact absurd hwant' hwp
    · obtain ⟨hp, -⟩ := filter_eq_some_iff.1 hother
      exact .inr ⟨item2, hp, hentry.trans hid, hle⟩
  refine ⟨usable_takeOut hu1 hin2, h.one_le, fun proto' hproto' => ?_, fun item2 hitem2 => ?_⟩
  · rw [hproto] at hproto'
    cases hproto'
    rcases hroom with hnone | ⟨item2, hp, hentry, hle⟩
    · rw [hnone, units, zero_add]
      exact h.le_max
    · rw [hp, units, if_pos hentry]
      exact hle
  · rcases hroom with hnone | ⟨item2', hp, hentry, -⟩
    · rw [hnone] at hitem2
      cases hitem2
    · rw [hp] at hitem2
      cases hitem2
      exact hentry

/-! ## Storing at checked destinations -/

/-- The units a filled bag brings along when it is stored at the free slot of a bag. -/
def brought (env : ItemEnv) (inv : Inventory) (it : Item) (dest : List (Pos × ℕ)) (entry : ℕ) : ℕ :=
  match dest with
  | [(p, _)] =>
    if isBagPos p && (inv.getItemByPos env p).isNone then inv.carried env entry (some it) else 0
  | _ => 0

/-- What storing does to the inventory : the units are added, no slot outside the destinations and
a stored bag changes, and the stacks are within bounds. -/
structure Landed (env : ItemEnv) (inv : Inventory) (it : Item) (dest : List (Pos × ℕ)) (count : ℕ)
    (inv' : Inventory) : Prop where
  wf : inv'.WF env
  total : ∀ entry, total entry (inv'.getItemByPos env) = total entry (inv.getItemByPos env) +
    (if entry = it.entry then count else 0) + inv.brought env it dest entry
  frame : ∀ q ∉ dest.map Prod.fst,
    (inv.isNotEmptyBag env it = true → ∀ pn ∈ dest, q.1 ≠ pn.1.2) →
      inv'.getItemByPos env q = inv.getItemByPos env q

theorem brought_of_empty (h : inv.isNotEmptyBag env it = false) (dest : List (Pos × ℕ)) (entry : ℕ) :
    inv.brought env it dest entry = 0 := by
  unfold brought
  split
  · rw [carried_of_empty h, ite_self]
  · rfl

/-- A filled bag that is stored at the slot of a bag. -/
theorem storeItemAt_landed {n : ℕ} (hw : inv.WF env) (hl : Loose env inv it)
    (ht : Takes env inv it p n) (hbag : isBagPos p = true) :
    Landed env inv it [(p, n)] n (inv.storeItemAt env p it n false).2 := by
  obtain ⟨inv1, new, heq, hentry, hcount, horigin⟩ := storeItemAt_eq_put hw hl ht false
  obtain ⟨proto, hproto⟩ := hl.template
  have hone := ht.one_le
  have hle := ht.le_max proto hproto
  have hok : env.StackOk new := ⟨proto, by rw [hentry, hproto], by omega, by omega⟩
  have hwf := horigin.wf_put hw hl hok
  rw [heq]
  generalize hg : new.guid = g at horigin
  cases horigin with
  | cloned hc _ => cases hc
  | moved _ hget =>
    refine ⟨hwf, fun entry => ?_, fun q hq hin => ?_⟩
    · have htotal := total_put hw.toDistinct ht.usable entry (some new)
      have hcarried : inv.carried env entry (some new) = inv.carried env entry (some it) :=
        carried_of_inside (inside_congr hg hentry) entry
      rw [hget, units, zero_add] at hcount
      simp only [weight, hget, hbag, if_true, carried_none, units, hentry, hcount, hcarried,
        eq_comm (a := it.entry)] at htotal
      simp only [brought, hbag, hget, isNone_none, Bool.and_self, if_true]
      omega
    · by_cases hin' : inv.isNotEmptyBag env it = true
      · exact getItemByPos_put_of_ne hw.toDistinct ht.usable _ (by simpa using hq) fun _ =>
          hin hin' (p, n) List.mem_cons_self
      · have hempty : inv.isNotEmptyBag env it = false := by simpa using hin'
        rw [getItemByPos_put hw.toDistinct ht.usable fun _ => by
            rw [hget, inside_congr hg hentry, inside_of_empty hempty, inside_none],
          update_of_ne (by simpa using hq)]
  | merged item2 hget =>
    have hsame := ht.same item2 hget
    have hins : inv.inside env (some new) = inv.inside env (inv.getItemByPos env p) := by
      rw [hget]
      exact inside_congr hg (hentry.trans hsame.symm)
    refine ⟨hwf, fun entry => ?_, fun q hq _ => ?_⟩
    · have htotal := total_put hw.toDistinct ht.usable entry (some new)
      have hcarried := carried_of_inside hins entry
      rw [hget] at hcarried hcount
      simp only [weight, hget, hbag, if_true, hcarried] at htotal
      simp only [brought, hget, isNone_some, Bool.and_false, Bool.false_eq_true, if_false]
      simp only [units, hentry, hsame, if_true] at htotal hcount
      by_cases he : entry = it.entry
      · subst he
        simp only [if_true] at htotal ⊢
        omega
      · simp only [if_neg he, if_neg (Ne.symm he)] at htotal ⊢
        omega
    · rw [getItemByPos_put hw.toDistinct ht.usable fun _ => hins, update_of_ne (by simpa using hq)]

/-- Storing at destinations that take their units. A filled bag has one, the slot of a bag. -/
theorem storeItem_landed {dest : List (Pos × ℕ)} (hne : dest ≠ []) (hw : inv.WF env)
    (hl : Loose env inv it) (hnodup : (dest.map Prod.fst).Nodup)
    (ht : ∀ pn ∈ dest, Takes env inv it pn.1 pn.2)
    (hfilled : inv.isNotEmptyBag env it = true → ∃ p n, dest = [(p, n)] ∧ isBagPos p = true) :
    Landed env inv it dest (dest.map Prod.snd).sum (storeItem env it dest inv).2 := by
  by_cases hbag : inv.isNotEmptyBag env it = true
  · obtain ⟨p, n, rfl, hp⟩ := hfilled hbag
    exact storeItemAt_landed hw hl (ht (p, n) List.mem_cons_self) hp
  · have hempty : inv.isNotEmptyBag env it = false := by simpa using hbag
    have hst := storeItem_filled dest hne hw hl hempty hnodup ht
    refine ⟨hst.wf, fun entry => ?_, fun q hq _ => hst.frame q hq⟩
    rw [hst.total, brought_of_empty hempty, add_zero]

theorem isNotEmptyBag_of_takeOut (h : (inv.takeOut env pos).isNotEmptyBag env it = true) :
    inv.isNotEmptyBag env it = true := by
  simp only [isNotEmptyBag, Bool.and_eq_true, List.any_eq_true, List.mem_range] at h ⊢
  obtain ⟨hbag, j, hj, hsome⟩ := h
  obtain ⟨x, hx⟩ := isSome_iff_exists.1 hsome
  exact ⟨hbag, j, hj, by rw [cells_takeOut hx]; rfl⟩

theorem isNotEmptyBag_of_taken (h : (inv.taken env srcPos want).isNotEmptyBag env it = true) :
    inv.isNotEmptyBag env it = true :=
  isNotEmptyBag_of_takeOut (isNotEmptyBag_of_takeOut h)

theorem usable_slot_lt (h : Usable env inv p) : p.2 < bankSlotBagEnd := by
  rcases h with h | ⟨b, -, hj⟩
  · exact h.2
  · exact lt_of_lt_of_le (lt_of_lt_of_le hj (env.bagSize_le b)) (by decide)

/-- The item that is stored : the source, or a new one. -/
def storeSource (env : ItemEnv) (inv : Inventory) (src : Option Item) (entry : ℕ)
    (dest : List (Pos × ℕ)) : Inventory :=
  match src with
  | some s => (storeItem env s dest inv).2
  | none => (inv.storeNewItem env dest entry).2

/-- The plan of a check is right for the inventory that `StoreItem` gets. -/
theorem storeSource_landed {entry count : ℕ} {dest : List (Pos × ℕ)} (hw : inv.WF env)
    (hsrc : SourceAt env inv src srcPos) (hentry : ∀ s, src = some s → s.entry = entry)
    (hproto : env.template entry = some proto) (hpos : 1 ≤ count)
    (hplan : Placed env inv proto src want asked count ⟨dest, 0⟩)
    (hself : ∀ s, src = some s → asked.2 ≠ nullSlot → inv.getBagByPos env asked.1 ≠ some s)
    (hwant : ∀ w, want = some w → ∀ pn ∈ dest, ¬ InBagAt env inv pn.1 w)
    (hfilled : src.any (inv.isNotEmptyBag env) = true →
      ∃ p n, dest = [(p, n)] ∧ isBagPos p = true) :
    ∃ it, it.entry = entry ∧ (∀ s, src = some s → it = s) ∧
      (src = none → (inv.taken env srcPos want).isNotEmptyBag env it = false) ∧
      Landed env (inv.taken env srcPos want) it dest count
        ((inv.taken env srcPos want).storeSource env src entry dest) := by
  have hsum : (dest.map Prod.snd).sum = count := hplan.sum
  have hne : dest ≠ [] := by
    rintro rfl
    simp at hsum
    omega
  have hnot : ∀ pn ∈ dest, ∀ b, inv.getBagByPos env pn.1.1 = some b → notSource src b = true := by
    intro pn hpn b hb
    have hspot := hplan.fits pn hpn
    rcases hspot.still with heq | hstill
    · cases hs : src with
      | none => rfl
      | some s =>
        have hslot : asked.2 ≠ nullSlot := by
          have hlt := usable_slot_lt hspot.usable
          rw [heq] at hlt
          intro hc
          rw [hc] at hlt
          exact absurd hlt (by decide)
        have hbs := hself s hs hslot
        rw [← heq, hb] at hbs
        simp only [notSource, all_some, decide_eq_true_eq]
        intro hg
        rw [hs] at hsrc
        exact hbs (by rw [hsrc.eq_of_guid hw (getBagByPos_eq_some hb).2.1 hg.symm])
    · exact hstill b hb
  have hw' : (inv.taken env srcPos want).WF env := (hw.takeOut srcPos).takeOut want
  have htakes : ∀ it : Item, it.entry = entry →
      ∀ pn ∈ dest, Takes env (inv.taken env srcPos want) it pn.1 pn.2 := by
    intro it hit pn hpn
    exact (hplan.fits pn hpn).takes hw hsrc (hit ▸ hproto) (hnot pn hpn)
      fun w hww => hwant w hww pn hpn
  rw [← hsum]
  cases hs : src with
  | some s =>
    have hse := hentry s hs
    refine ⟨s, hse, fun s' hs' => some.inj hs', (fun hc => nomatch hc), ?_⟩
    refine storeItem_landed hne hw' (hsrc.loose hw hs) hplan.nodup (htakes s hse) fun hb => ?_
    exact hfilled (by rw [hs]; exact isNotEmptyBag_of_taken hb)
  | none =>
    obtain ⟨new, hne', hempty, hfilled⟩ := storeNewItem_filled hw' hproto (hsum ▸ hpos)
      hplan.nodup htakes
    refine ⟨new, hne', (fun s hs' => nomatch hs'), fun _ => hempty, hfilled.wf, fun e => ?_,
      fun q hq _ => hfilled.frame q hq⟩
    rw [brought_of_empty hempty, Nat.add_zero]
    exact hfilled.total e

/-! ## `CanStoreItem`, then `StoreItem` -/

theorem inSpecificSlot_swap {bag slot : ℕ} {pl pl' : Plan Pos}
    (h : inv.canStoreItemInSpecificSlot env bag slot proto true src pl = .ok pl') :
    pl' = pl.push (bag, slot) proto.getMaxStackSize := by
  unfold canStoreItemInSpecificSlot at h
  simp only [if_true] at h
  split at h
  · cases h
  split at h
  · split at h
    · cases h
    · cases h
      rfl
  · split at h
    · cases h
    · split_ifs at h
      cases h
      rfl

/-- A swap that is asked for at a slot needs that slot only. -/
theorem search_swap {bag slot count : ℕ} {full : InventoryResult} {noSimilar : ℕ}
    {rest : List Phase} (hb : bag ≠ nullBag) (hs : slot ≠ nullSlot)
    (hle : count ≤ proto.getMaxStackSize)
    (h : (search full noSimilar ((if bag ≠ nullBag ∧ slot ≠ nullSlot then
      [.required (inv.canStoreItemInSpecificSlot env bag slot proto true src)] else []) ++ rest)
        ⟨[], count⟩).res = .ok) :
    (search full noSimilar ((if bag ≠ nullBag ∧ slot ≠ nullSlot then
      [.required (inv.canStoreItemInSpecificSlot env bag slot proto true src)] else []) ++ rest)
        ⟨[], count⟩).dest = [((bag, slot), count)] := by
  rw [if_pos ⟨hb, hs⟩, List.singleton_append, search] at h ⊢
  cases hrun : inv.canStoreItemInSpecificSlot env bag slot proto true src ⟨[], count⟩ with
  | error res =>
    rw [hrun] at h
    exact absurd (by rw [hrun]; exact congrArg _ h) (inSpecificSlot_ne_error_ok _ _ _ _)
  | ok pl' =>
    have hpush : pl' = ⟨[((bag, slot), count)], 0⟩ := by
      rw [inSpecificSlot_swap hrun, Plan.push_of_not_mem List.not_mem_nil]
      simp [min_eq_right hle]
    simp only [hrun, hpush, if_true] at h ⊢
    split_ifs at h ⊢
    rfl

theorem not_inBagAt_of_null {bag slot : ℕ} (h : bag = nullBag ∨ slot = nullSlot) (q : Pos) :
    ¬ InBagAt env inv q (bag, slot) := by
  rintro ⟨hb, hp⟩
  obtain ⟨b, hb⟩ := isSome_iff_exists.1 hb
  have hslot := (getBagByPos_eq_some hb).1
  obtain ⟨rfl, rfl⟩ := Prod.mk.inj hp
  rcases h with h | h
  · exact absurd h (by decide)
  · rw [h] at hslot
    exact absurd hslot (by decide)

theorem not_inBagAt_self (q : Pos) : ¬ InBagAt env inv q q := by
  rintro ⟨hb, hq⟩
  have hq1 := congrArg Prod.fst hq
  rw [hq1, getBagByPos_bag0] at hb
  cases hb

/-- No destination lies in the bag that is swapped. -/
theorem canStoreItem_not_inBagAt {bag slot entry count : ℕ} {swap : Bool} (hpos : 1 ≤ count)
    (hlt : count < 2 ^ 32)
    (hswap : swap = true → ∀ proto, env.template entry = some proto →
      count ≤ proto.getMaxStackSize)
    (hok : (inv.canStoreItem env bag slot entry count src swap).res = .ok) {w : Pos}
    (hww : (if swap then some (bag, slot) else none) = some w) :
    ∀ pn ∈ (inv.canStoreItem env bag slot entry count src swap).dest, ¬ InBagAt env inv pn.1 w := by
  intro pn hpn
  split_ifs at hww with hs
  obtain rfl := some.inj hww
  by_cases hnull : bag = nullBag ∨ slot = nullSlot
  · exact not_inBagAt_of_null hnull pn.1
  rw [not_or] at hnull
  subst hs
  obtain ⟨proto', hproto', heq⟩ := canStoreItem_search hpos hlt hok
  rw [heq] at hok hpn
  unfold canStorePhases at hok hpn
  rw [List.append_assoc] at hok hpn
  rw [search_swap hnull.1 hnull.2 (hswap rfl proto' hproto') hok] at hpn
  obtain rfl := List.mem_singleton.1 hpn
  exact not_inBagAt_self (bag, slot)

/-- `CanStoreItem` and `StoreItem` agree. If the check succeeds, its destinations are distinct,
their counts add up to the units asked for, and each of them is free, holds the source, is swapped,
or has a stack with room. `StoreItem` on the inventory without the source, and without the swapped
item, adds exactly these units, changes nothing else and keeps every stack within bounds.

The callers promise that a swap moves at most one stack, and that no bag is put into itself. -/
theorem canStoreItem_exact {bag slot entry count : ℕ} {swap : Bool} (hw : inv.WF env)
    (hsrc : SourceAt env inv src srcPos) (hentry : ∀ s, src = some s → s.entry = entry)
    (hpos : 1 ≤ count) (hlt : count < 2 ^ 32)
    (hswap : swap = true → ∀ proto, env.template entry = some proto →
      count ≤ proto.getMaxStackSize)
    (hself : ∀ s, src = some s → slot ≠ nullSlot → inv.getBagByPos env bag ≠ some s)
    (hok : (inv.canStoreItem env bag slot entry count src swap).res = .ok) :
    ∃ proto it, env.template entry = some proto ∧ it.entry = entry ∧
      (∀ s, src = some s → it = s) ∧
      Placed env inv proto src (if swap then some (bag, slot) else none) (bag, slot) count
        ⟨(inv.canStoreItem env bag slot entry count src swap).dest, 0⟩ ∧
      Landed env (inv.taken env srcPos (if swap then some (bag, slot) else none)) it
        (inv.canStoreItem env bag slot entry count src swap).dest count
        ((inv.taken env srcPos (if swap then some (bag, slot) else none)).storeSource env src entry
          (inv.canStoreItem env bag slot entry count src swap).dest) := by
  obtain ⟨proto, hproto, hplan⟩ := canStoreItem_placed hpos hlt hok
  obtain ⟨it, hit, hits, -, hland⟩ := storeSource_landed hw hsrc hentry hproto hpos hplan hself
    (fun w hww => canStoreItem_not_inBagAt hpos hlt hswap hok hww)
    fun hf => by
      obtain ⟨hbag, hdest⟩ := canStoreItem_filledBag hpos hlt hf hok
      exact ⟨(bag, slot), count, hdest, hbag⟩
  exact ⟨proto, it, hproto, hit, hits, hplan, hland⟩

end Inventory

/-! ## A small inventory -/

/-- Stacks of 20 (entry 117), single items (entry 25) and bags of 6 slots (entry 828). -/
def smallEnv : ItemEnv where
  template i :=
    if i = 117 then some { itemId := 117, stackable := 20 }
    else if i = 25 then some { itemId := 25, itemClass := 2 }
    else if i = 828 then
      some { itemId := 828, itemClass := 1, inventoryType := 18, containerSlots := 6 }
    else none
  template_id := by
    intro i proto h
    split_ifs at h <;> cases h <;> simp_all

/-- Two stacks of entry 117 with 5 and 18 units, and a single item. -/
def smallInventory : Inventory :=
  .ofList 1 4 [(.slot 23, { guid := 1, entry := 117, count := 5 }),
    (.slot 24, { guid := 2, entry := 117, count := 18 }),
    (.slot 25, { guid := 3, entry := 25, count := 1 })]

theorem smallInventory_wf : smallInventory.WF smallEnv :=
  Inventory.wf_ofList (by decide) (by decide) (by decide) (by decide)

/-- The smaller stack of the small inventory. -/
def smallStack : Item :=
  { guid := 1, entry := 117, count := 5 }

example : (smallInventory.canStoreItem smallEnv nullBag nullSlot 117 5 (some smallStack) false).dest =
    [((255, 24), 2), ((255, 23), 3)] := by
  decide +kernel

theorem canStoreItem_exact_smallStack :
    ∃ proto it, smallEnv.template 117 = some proto ∧ it.entry = 117 ∧
      (∀ s, some smallStack = some s → it = s) ∧
      Inventory.Placed smallEnv smallInventory proto (some smallStack)
        (if false then some (nullBag, nullSlot) else none) (nullBag, nullSlot) 5
        ⟨(smallInventory.canStoreItem smallEnv nullBag nullSlot 117 5 (some smallStack) false).dest,
          0⟩ ∧
      Inventory.Landed smallEnv
        (smallInventory.taken smallEnv (some (255, 23))
          (if false then some (nullBag, nullSlot) else none)) it
        (smallInventory.canStoreItem smallEnv nullBag nullSlot 117 5 (some smallStack) false).dest 5
        ((smallInventory.taken smallEnv (some (255, 23))
          (if false then some (nullBag, nullSlot) else none)).storeSource smallEnv (some smallStack)
          117 (smallInventory.canStoreItem smallEnv nullBag nullSlot 117 5 (some smallStack)
            false).dest) :=
  Inventory.canStoreItem_exact smallInventory_wf (.held smallStack (255, 23) (by decide))
    (fun s hs => by cases hs; rfl) (by decide) (by decide) (fun hs => nomatch hs)
    (fun s _ hs => absurd rfl hs) (by decide +kernel)

/-- The single item is to be swapped with a stack, and the check succeeds. If the stack is left in
its slot, `StoreItem` adds the item to the stack. -/
theorem storeItem_onto_swapped :
    let it : Item := { guid := 3, entry := 25, count := 1 }
    let check := smallInventory.canStoreItem smallEnv 255 24 25 1 (some it) true
    let before := smallInventory.removeItem smallEnv (255, 25)
    let after := (Inventory.storeItem smallEnv it check.dest before).2
    check.res = .ok ∧ check.dest = [((255, 24), 1)] ∧
      total 25 (after.getItemByPos smallEnv) ≠ total 25 (before.getItemByPos smallEnv) + 1 ∧
      after.getItemByPos smallEnv (255, 24) = some { guid := 2, entry := 117, count := 19 } := by
  decide +kernel

end MistyWorld
