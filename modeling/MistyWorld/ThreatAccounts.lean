import MistyWorld.ThreatLoop
import MistyWorld.ThreatVictim

/-!
# Accounts of the threat

Whatever the methods of a threat manager do to its lists, the threat of each unit is an account :
adding threat to a unit writes to its account alone (`moves_addThreat`), a change of the status to
none (`moves_setOnlineOfflineState`), and `resetAllAggro` clears those of the units that are online
when it ends (`threatOn_resetAllAggro`). A taunt writes to the account of the taunter
(`threatOn_tauntApply`), and its fade-out takes this back when he is online
(`threatOn_tauntFadeOut`).
-/

open Option List

namespace MistyWorld

namespace ThreatManager

variable {w : ThreatWorld} {m m' m'' : ThreatManager ℚ} {p q u : ℕ} {r s : HostileReference ℚ}

/-! ## Accounts -/

/-- The reference of a unit. -/
def refOf (m : ThreatManager ℚ) (u : ℕ) : Option (HostileReference ℚ) :=
  (m.getReferenceByTarget (m.threatList ++ m.offlineList) u).bind m.refs

/-- The threat of a unit, 0 without a reference. -/
def threatOn (m : ThreatManager ℚ) (u : ℕ) : ℚ :=
  (m.refOf u).elim 0 HostileReference.threat

/-- The temporary threat of a unit, 0 without a reference. -/
def tempOn (m : ThreatManager ℚ) (u : ℕ) : ℚ :=
  (m.refOf u).elim 0 HostileReference.tempThreatModifier

/-- A unit is in the online list. -/
def isOnline (m : ThreatManager ℚ) (u : ℕ) : Bool :=
  (m.getReferenceByTarget m.threatList u).isSome

theorem isOnline_iff :
    m.isOnline u = true ↔ ∃ p ∈ m.threatList, ∃ r, m.refs p = some r ∧ r.unitGuid = u := by
  rw [isOnline]
  cases hfind : m.getReferenceByTarget m.threatList u with
  | none =>
    refine iff_of_false nofun ?_
    rintro ⟨p, hp, r, hr, hguid⟩
    exact getReferenceByTarget_eq_none hfind hp hr hguid
  | some p =>
    obtain ⟨hp, r, hr, hguid⟩ := getReferenceByTarget_eq_some hfind
    exact iff_of_true rfl ⟨p, hp, r, hr, hguid⟩

theorem Ordered.refOf_eq (h : m.Ordered) (hr : m.refs p = some r) :
    m.refOf r.unitGuid = some r := by
  rw [refOf]
  cases hfind : m.getReferenceByTarget (m.threatList ++ m.offlineList) r.unitGuid with
  | none =>
    have hmem : p ∈ m.threatList ++ m.offlineList := mem_append.2 (h.mem_lists hr)
    exact absurd rfl (getReferenceByTarget_eq_none hfind hmem hr)
  | some q =>
    obtain ⟨-, s, hs, hguid⟩ := getReferenceByTarget_eq_some hfind
    rw [bind_some, h.heap.eq_of_guid q p s r hs hr hguid, hr]

theorem refOf_eq_none (hnone : ∀ p r, m.refs p = some r → r.unitGuid ≠ u) : m.refOf u = none := by
  rw [refOf]
  cases hfind : m.getReferenceByTarget (m.threatList ++ m.offlineList) u with
  | none => rfl
  | some q =>
    obtain ⟨-, s, hs, hguid⟩ := getReferenceByTarget_eq_some hfind
    exact absurd hguid (hnone q s hs)

theorem Ordered.threatOn_eq (h : m.Ordered) (hr : m.refs p = some r) :
    m.threatOn r.unitGuid = r.threat := by
  rw [threatOn, h.refOf_eq hr, elim_some]

theorem Ordered.tempOn_eq (h : m.Ordered) (hr : m.refs p = some r) :
    m.tempOn r.unitGuid = r.tempThreatModifier := by
  rw [tempOn, h.refOf_eq hr, elim_some]

/-- A reference is written, which is not one of the unit. -/
theorem refOf_other (h : m.Ordered) (h' : m'.Ordered)
    (hother : ∀ q, q ≠ p → m'.refs q = m.refs q) (hne : ∀ r, m.refs p = some r → r.unitGuid ≠ u)
    (hne' : ∀ s, m'.refs p = some s → s.unitGuid ≠ u) : m'.refOf u = m.refOf u := by
  by_cases hexists : ∃ q t, m.refs q = some t ∧ t.unitGuid = u
  · obtain ⟨q, t, ht, rfl⟩ := hexists
    have hq : q ≠ p := fun heq => hne t (heq ▸ ht) rfl
    rw [h.refOf_eq ht, h'.refOf_eq ((hother q hq).trans ht)]
  · rw [refOf_eq_none fun q t ht hguid => hexists ⟨q, t, ht, hguid⟩, refOf_eq_none]
    intro q t ht hguid
    by_cases hq : q = p
    · exact hne' t (hq ▸ ht) hguid
    · exact hexists ⟨q, t, (hother q hq).symm.trans ht, hguid⟩

/-- A reference is written, which is the only one of its unit. -/
theorem refOf_write (h : m.Ordered) (h' : m'.Ordered) (hr : m.refs p = some r)
    (hs : m'.refs p = some s) (hguid : s.unitGuid = r.unitGuid)
    (hother : ∀ q, q ≠ p → m'.refs q = m.refs q) :
    m'.refOf u = if u = r.unitGuid then some s else m.refOf u := by
  split_ifs with hu
  · rw [hu, ← hguid]
    exact h'.refOf_eq hs
  · refine refOf_other h h' hother (fun t ht hg => hu ?_) fun t ht hg => hu ?_
    · rw [← hg, some.inj (ht.symm.trans hr)]
    · rw [← hg, some.inj (ht.symm.trans hs), hguid]

/-! ## Moves -/

/-- The threat of the units changes by `d`, and their temporary threat stays. -/
structure Moves (d : ℕ → ℚ) (m m' : ThreatManager ℚ) : Prop where
  threat : ∀ u, m'.threatOn u = m.threatOn u + d u
  temp : ∀ u, m'.tempOn u = m.tempOn u

variable {d d' : ℕ → ℚ}

theorem Moves.of_refOf (h : ∀ u, m'.refOf u = m.refOf u) : Moves 0 m m' where
  threat u := by rw [threatOn, threatOn, h, Pi.zero_apply, add_zero]
  temp u := by rw [tempOn, tempOn, h]

theorem Moves.refl (m : ThreatManager ℚ) : Moves 0 m m :=
  Moves.of_refOf fun _ => rfl

theorem Moves.trans (h : Moves d m m') (h' : Moves d' m' m'') : Moves (d + d') m m'' where
  threat u := by rw [h'.threat, h.threat, Pi.add_apply, add_assoc]
  temp u := (h'.temp u).trans (h.temp u)

theorem Moves.trans_zero (h : Moves d m m') (h' : Moves 0 m' m'') : Moves d m m'' :=
  add_zero d ▸ h.trans h'

theorem Moves.zero_trans (h : Moves 0 m m') (h' : Moves d m' m'') : Moves d m m'' :=
  zero_add d ▸ h.trans h'

theorem moves_write (h : m.Ordered) (h' : m'.Ordered) (hr : m.refs p = some r)
    (hs : m'.refs p = some s) (hguid : s.unitGuid = r.unitGuid)
    (htemp : s.tempThreatModifier = r.tempThreatModifier)
    (hother : ∀ q, q ≠ p → m'.refs q = m.refs q) :
    Moves (Pi.single r.unitGuid (s.threat - r.threat)) m m' where
  threat u := by
    rw [threatOn, refOf_write h h' hr hs hguid hother]
    split_ifs with hu
    · rw [hu, elim_some, h.threatOn_eq hr, Pi.single_eq_same, add_sub_cancel]
    · rw [Pi.single_eq_of_ne hu, add_zero, threatOn]
  temp u := by
    rw [tempOn, refOf_write h h' hr hs hguid hother]
    split_ifs with hu
    · rw [hu, elim_some, h.tempOn_eq hr, htemp]
    · rw [tempOn]

/-- A reference is written, with the same threat. -/
theorem moves_status (h : m.Ordered) (h' : m'.Ordered) (hr : m.refs p = some r)
    (hs : m'.refs p = some s) (hguid : s.unitGuid = r.unitGuid) (hthreat : s.threat = r.threat)
    (htemp : s.tempThreatModifier = r.tempThreatModifier)
    (hother : ∀ q, q ≠ p → m'.refs q = m.refs q) : Moves 0 m m' := by
  have hmoves := moves_write h h' hr hs hguid htemp hother
  rwa [hthreat, sub_self, Pi.single_zero] at hmoves

/-! ## The status -/

theorem moves_setAccessibleState (h : m.Ordered) (p : ℕ) (isAccessible : Bool) :
    Moves 0 m (m.setAccessibleState exact p isAccessible) := by
  cases hr : m.refs p with
  | none =>
    rw [setAccessibleState, hr]
    exact Moves.refl m
  | some r =>
    have h' := h.setAccessibleState (o := exact) p isAccessible
    rw [setAccessibleState_eq hr] at h' ⊢
    exact moves_status h h' hr (setRef_self m p _) rfl rfl rfl fun q hq => setRef_of_ne m hq _

theorem moves_setOnlineOfflineState (h : m.Ordered) (p : ℕ) (isOnline : Bool) :
    Moves 0 m (m.setOnlineOfflineState exact p isOnline) := by
  cases hr : m.refs p with
  | none =>
    rw [setOnlineOfflineState, hr]
    exact Moves.refl m
  | some r =>
    have h' := h.setOnlineOfflineState (o := exact) p isOnline
    rw [setOnlineOfflineState_eq hr] at h' ⊢
    split_ifs at h' ⊢
    · exact Moves.refl m
    · exact moves_status h h' hr (setRef_self m p _) rfl rfl rfl fun q hq => setRef_of_ne m hq _
    · exact moves_status h h' hr (setRef_self m p _) rfl rfl rfl fun q hq => setRef_of_ne m hq _

theorem moves_updateOnlineStatus (h : m.Ordered) (w : ThreatWorld) (p : ℕ) :
    Moves 0 m (m.updateOnlineStatus exact w p) := by
  rw [updateOnlineStatus, h.heap.relink]
  split
  · exact Moves.refl m
  · exact (moves_setAccessibleState h p _).trans_zero
      (moves_setOnlineOfflineState (h.setAccessibleState p _) p _)

theorem moves_threatChange (m : ThreatManager ℚ) (p : ℕ) (value : ℚ) :
    Moves 0 m (m.processThreatEvent exact p (.threatChange value)) := by
  rw [processThreatEvent]
  split
  · exact Moves.of_refOf fun _ => rfl
  · exact Moves.refl m

/-! ## Added threat -/

/-- What is done for the owner adds no threat. -/
def Free (f : ThreatManager ℚ → ThreatManager ℚ) : Prop :=
  ∀ m, m.Ordered → (f m).Ordered ∧ Moves 0 m (f m)

variable {toOwner : ThreatManager ℚ → ThreatManager ℚ}

theorem moves_refAddThreat (h : m.Ordered) (hf : Free toOwner) (hr : m.refs p = some r)
    (modThreat : ℚ) :
    Moves (Pi.single r.unitGuid modThreat) m (m.refAddThreat exact w toOwner p modThreat) := by
  have hset : (m.setRef p { r with threat := exact.add r.threat modThreat }).Ordered :=
    h.setRef hr rfl rfl rfl
  have hadd : Moves (Pi.single r.unitGuid modThreat) m
      (m.setRef p { r with threat := exact.add r.threat modThreat }) := by
    have hmoves := moves_write h hset hr (setRef_self m p _) rfl rfl
      fun q hq => setRef_of_ne m hq _
    have hdiff : exact.add r.threat modThreat - r.threat = modThreat := add_sub_cancel_left _ _
    rwa [hdiff] at hmoves
  refine refAddThreat_rule (P := fun m' => m'.Ordered ∧ Moves (Pi.single r.unitGuid modThreat) m m')
    hr modThreat ?_ (fun m' h' => ⟨h'.1.threatChange p modThreat,
      h'.2.trans_zero (moves_threatChange m' p modThreat)⟩)
    (fun m' h' => h'.2.trans_zero (hf m' h'.1).2) fun m' h' => h'.2
  split
  · exact ⟨hset, hadd⟩
  · exact ⟨hset.updateOnlineStatus p, hadd.trans_zero (moves_updateOnlineStatus hset w p)⟩

theorem moves_newReference (h : m.Ordered) (hnew : ∀ p r, m.refs p = some r → r.unitGuid ≠ u) :
    Moves 0 m (m.newReference exact u) := by
  have h' := h.newReference (o := exact) hnew
  have hself := newReference_self exact m u
  have hnone := refOf_eq_none hnew
  have hrefOf : ∀ u', u' ≠ u → (m.newReference exact u).refOf u' = m.refOf u' := fun u' hu' =>
    refOf_other h h' (fun q hq => setRef_of_ne m hq _)
      (fun r hr => absurd (h.heap.fresh _ r hr) (lt_irrefl _))
      fun s hs hg => hu' (by rw [← hg, ← some.inj (hself.symm.trans hs)])
  refine ⟨fun u' => ?_, fun u' => ?_⟩
  · rw [Pi.zero_apply, add_zero]
    by_cases hu' : u' = u
    · subst hu'
      rw [h'.threatOn_eq hself, threatOn, hnone]
      rfl
    · rw [threatOn, hrefOf u' hu', threatOn]
  · by_cases hu' : u' = u
    · subst hu'
      rw [h'.tempOn_eq hself, tempOn, hnone]
      rfl
    · rw [tempOn, hrefOf u' hu', tempOn]

theorem moves_addThreatTo (h : m.Ordered) (hf : Free toOwner) (u : ℕ) (threat : ℚ) :
    Moves (Pi.single u threat) m (m.addThreatTo exact w toOwner u threat) := by
  refine addThreatTo_rule h u threat (fun p r hr hguid => ?_) fun hnone hnew => ?_
  · exact hguid ▸ moves_refAddThreat h hf hr threat
  · have hadd := (moves_newReference h hnone).zero_trans
      (moves_refAddThreat (w := w) hnew hf (newReference_self exact m u) threat)
    split
    · exact hadd.trans_zero (moves_setOnlineOfflineState
        (hnew.refAddThreat (fun m hm => (hf m hm).1) m.nextRef threat) m.nextRef false)
    · exact hadd

theorem free_addOwners (w : ThreatWorld) : ∀ owners : List ℕ, Free (addOwners exact w owners)
  | [], m, h => ⟨h, Moves.refl m⟩
  | owner :: owners, m, h => by
    have hfree := free_addOwners w owners
    rw [addOwners]
    split
    · have hmoves := moves_addThreatTo (w := w) h hfree owner exact.zero
      refine ⟨h.addThreatTo (fun m hm => (hfree m hm).1) owner exact.zero, ?_⟩
      rwa [show exact.zero = (0 : ℚ) from rfl, Pi.single_zero] at hmoves
    · exact ⟨h, Moves.refl m⟩

/-- Threat is added to a unit, and to no other. -/
theorem moves_addThreat (h : m.Ordered) (w : ThreatWorld) (u : ℕ) (threat : ℚ) :
    Moves (Pi.single u threat) m (m.addThreat exact w u threat) :=
  moves_addThreatTo h (free_addOwners w _) u threat

theorem moves_changeThreat (h : m.Ordered) (w : ThreatWorld) (hr : m.refs p = some r)
    (modThreat : ℚ) :
    Moves (Pi.single r.unitGuid modThreat) m (m.changeThreat exact w p modThreat) := by
  rw [changeThreat, hr]
  exact moves_refAddThreat h (free_addOwners w _) hr modThreat

theorem moves_setThreat (h : m.Ordered) (w : ThreatWorld) (hr : m.refs p = some r) (threat : ℚ) :
    Moves (Pi.single r.unitGuid (threat - r.threat)) m (m.setThreat exact w p threat) := by
  rw [setThreat, hr]
  exact moves_changeThreat h w hr (threat - r.threat)

/-! ## Resets -/

/-- A reset of the whole list : the threat of the units that are online at its end is 0, and that of
the others has not changed. -/
structure Zeroed (m m' : ThreatManager ℚ) : Prop where
  guid : ∀ p r, m.refs p = some r → ∃ s, m'.refs p = some s ∧ s.unitGuid = r.unitGuid
  list : m.threatList <+: m'.threatList
  temp : ∀ u, m'.tempOn u = m.tempOn u
  zero : ∀ u, m'.isOnline u = true → m'.threatOn u = 0
  other : ∀ u, m'.isOnline u = false → m'.threatOn u = m.threatOn u

theorem zeroed_end {i : ℕ} (hend : m.threatList.length ≤ i)
    (hzero : ∀ p ∈ m.threatList.take i, ∀ r, m.refs p = some r → m.threatOn r.unitGuid = 0) :
    Zeroed m m where
  guid _ r hr := ⟨r, hr, rfl⟩
  list := prefix_rfl
  temp _ := rfl
  zero u hu := by
    obtain ⟨p, hp, r, hr, rfl⟩ := isOnline_iff.1 hu
    rw [take_of_length_le hend] at hzero
    exact hzero p hp r hr
  other _ _ := rfl

/-- The loop sets the threat of each unit of the list to 0, also of those that come meanwhile. -/
theorem zeroed_resetLoop (w : ThreatWorld) : ∀ (n i : ℕ) {m : ThreatManager ℚ}, m.Ordered →
    m.weight w (m.threatList.drop i) ≤ n →
      (∀ p ∈ m.threatList.take i, ∀ r, m.refs p = some r → m.threatOn r.unitGuid = 0) →
        Zeroed m (resetLoop exact w n i m)
  | 0, i, m, h, hn, hzero => zeroed_end (h.length_le_of_weight (Nat.le_zero.1 hn)) hzero
  | n + 1, i, m, h, hn, hzero => by
    rw [resetLoop]
    cases hp : m.threatList[i]? with
    | none => exact zeroed_end (List.getElem?_eq_none_iff.1 hp) hzero
    | some p =>
      obtain ⟨hlt, hget⟩ := List.getElem?_eq_some_iff.1 hp
      have hmem : p ∈ m.threatList := hget ▸ getElem_mem hlt
      obtain ⟨r, hr⟩ := h.exists_ref hmem
      have hmoves := moves_setThreat h w hr exact.zero
      have hgrows := grows_setThreat (o := exact) (w := w) h hmem exact.zero
      obtain ⟨added, hlist, -⟩ := hgrows.list
      have hclear : ∀ q ∈ (m.setThreat exact w p exact.zero).threatList.take (i + 1), ∀ t,
          (m.setThreat exact w p exact.zero).refs q = some t →
            (m.setThreat exact w p exact.zero).threatOn t.unitGuid = 0 := by
        intro q hq t ht
        rw [hlist, take_append_of_le_length hlt] at hq
        obtain ⟨t0, ht0⟩ := h.exists_ref (mem_of_mem_take hq)
        obtain ⟨t', ht', hguid⟩ := hgrows.guid q t0 ht0
        rw [ht, some.injEq] at ht'
        subst ht'
        rw [hguid, hmoves.threat]
        by_cases hsame : t0.unitGuid = r.unitGuid
        · rw [hsame, Pi.single_eq_same, h.threatOn_eq hr]
          exact add_sub_cancel r.threat 0
        · have hold : q ∈ m.threatList.take i := by
            rw [take_add_one, hp] at hq
            rcases mem_append.1 hq with hq | hq
            · exact hq
            · obtain rfl := mem_singleton.1 hq
              rw [hr, some.injEq] at ht0
              exact absurd (ht0 ▸ rfl) hsame
          rw [Pi.single_eq_of_ne hsame, add_zero, hzero q hold t0 ht0]
      have hrest := zeroed_resetLoop w n (i + 1) (h.setThreat p exact.zero)
        (h.weight_setThreat hp exact.zero hn) hclear
      refine ⟨fun q t ht => ?_, ?_, fun u => (hrest.temp u).trans (hmoves.temp u), hrest.zero,
        fun u hu => ?_⟩
      · obtain ⟨t', ht', hguid⟩ := hgrows.guid q t ht
        obtain ⟨t'', ht'', hguid'⟩ := hrest.guid q t' ht'
        exact ⟨t'', ht'', hguid'.trans hguid⟩
      · exact (hlist ▸ prefix_append _ added).trans hrest.list
      · have hne : u ≠ r.unitGuid := by
          rintro rfl
          obtain ⟨t, ht, hguid⟩ := hgrows.guid p r hr
          obtain ⟨t', ht', hguid'⟩ := hrest.guid p t ht
          have hstill := hrest.list.subset (hlist ▸ mem_append_left added hmem)
          have honline := isOnline_iff.2 ⟨p, hstill, t', ht', hguid'.trans hguid⟩
          rw [honline] at hu
          cases hu
        rw [hrest.other u hu, hmoves.threat, Pi.single_eq_of_ne hne, add_zero]

theorem zeroed_resetAllAggro (h : m.Ordered) (w : ThreatWorld) :
    Zeroed m (m.resetAllAggro exact w) := by
  rw [resetAllAggro]
  split
  · rename_i hempty
    exact zeroed_end (i := 0) (by rw [hempty]; exact le_refl 0) fun p hp =>
      absurd hp not_mem_nil
  · have hloop := zeroed_resetLoop w (m.resetFuel w) 0 h (le_refl _) fun p hp =>
      absurd hp not_mem_nil
    exact ⟨hloop.guid, hloop.list, hloop.temp, hloop.zero, hloop.other⟩

/-- A reset clears the threat of the units that are online when it ends. -/
theorem threatOn_resetAllAggro (h : m.Ordered) (w : ThreatWorld) (u : ℕ) :
    (m.resetAllAggro exact w).threatOn u =
      if (m.resetAllAggro exact w).isOnline u then 0 else m.threatOn u := by
  have hzeroed := zeroed_resetAllAggro h w
  split_ifs with hu
  · exact hzeroed.zero u hu
  · exact hzeroed.other u (Bool.eq_false_iff.2 hu)

/-! ## Taunts -/

/-- What a taunt adds : it fills up the threat of the taunter to that of the victim. -/
def tauntOf (m : ThreatManager ℚ) (taunter : ℕ) : ℚ :=
  match m.getReferenceByTarget m.threatList taunter with
  | none => 0
  | some p =>
    match m.refs p, m.currentVictim.bind m.refs with
    | some r, some v => if r.threat < v.threat then v.threat - r.threat else 0
    | _, _ => 0

/-- The temporary threat of a reference is written. -/
theorem setTemp_spec (h : m.Ordered) (hr : m.refs p = some r) (temp : ℚ) :
    (∀ u, (m.setRef p { r with tempThreatModifier := temp }).threatOn u = m.threatOn u) ∧
      (m.setRef p { r with tempThreatModifier := temp }).tempOn r.unitGuid = temp := by
  have h' : (m.setRef p { r with tempThreatModifier := temp }).Ordered := h.setRef hr rfl rfl rfl
  refine ⟨fun u => ?_, h'.tempOn_eq (setRef_self m p _)⟩
  rw [threatOn, refOf_write h h' hr (setRef_self m p _) rfl fun q hq => setRef_of_ne m hq _]
  split_ifs with hu
  · rw [hu, elim_some, h.threatOn_eq hr]
  · rw [threatOn]

/-- A taunt adds the difference to the victim to the threat of the taunter, and keeps it as his
temporary threat. -/
theorem tauntApply_spec (h : m.Ordered) (w : ThreatWorld) (htemp : m.tempOn u = 0) :
    (∀ u', (m.tauntApply exact w u).threatOn u' =
        m.threatOn u' + (Pi.single u (m.tauntOf u) : ℕ → ℚ) u') ∧
      (m.tauntApply exact w u).tempOn u = m.tauntOf u := by
  have hsame : (∀ u', m.threatOn u' = m.threatOn u' + (Pi.single u 0 : ℕ → ℚ) u') ∧
      m.tempOn u = 0 :=
    ⟨fun u' => by rw [Pi.single_zero, Pi.zero_apply, add_zero], htemp⟩
  rw [tauntApply, tauntOf]
  cases hfind : m.getReferenceByTarget m.threatList u with
  | none => exact hsame
  | some p =>
    obtain ⟨-, r, hr, rfl⟩ := getReferenceByTarget_eq_some hfind
    rw [h.tempOn_eq hr] at htemp
    dsimp only
    rw [hr]
    cases hv : m.currentVictim.bind m.refs with
    | none => exact hsame
    | some v =>
      dsimp only
      by_cases hless : r.threat < v.threat
      · have hzero : exact.isZero r.tempThreatModifier = true := decide_eq_true htemp
        have hmod : exact.isZero (exact.sub v.threat r.threat) = false :=
          decide_eq_false (sub_ne_zero.2 (ne_of_gt hless))
        rw [if_pos ⟨decide_eq_true hless, hzero⟩, if_pos hless, addTempThreat, hr]
        dsimp only
        rw [hmod, if_neg Bool.false_ne_true]
        have h' : Ordered (m.setRef p { r with
            tempThreatModifier := exact.sub v.threat r.threat }) := h.setRef hr rfl rfl rfl
        obtain ⟨hthreat, htemp'⟩ := setTemp_spec h hr (exact.sub v.threat r.threat)
        have hmoves := moves_changeThreat h' w (setRef_self m p _) (exact.sub v.threat r.threat)
        refine ⟨fun u' => ?_, ?_⟩
        · rw [hmoves.threat, hthreat]
          rfl
        · rw [hmoves.temp, htemp']
          rfl
      · rw [if_neg fun hcond => hless (of_decide_eq_true hcond.1), if_neg hless]
        exact hsame

theorem exists_changeThreat (h : m.Ordered) (w : ThreatWorld) (hr : m.refs p = some r)
    (modThreat : ℚ) :
    ∃ s, (m.changeThreat exact w p modThreat).refs p = some s ∧ s.unitGuid = r.unitGuid := by
  have hgrows := grows_refAddThreat (o := exact) (w := w) h hr
    (grows_addOwners exact w (u := r.unitGuid) rfl) modThreat
  rw [changeThreat, hr]
  exact hgrows.guid p r hr

/-- The fade-out takes the temporary threat back, when the taunter is online. -/
theorem threatOn_tauntFadeOut (h : m.Ordered) (w : ThreatWorld) (u u' : ℕ) :
    (m.tauntFadeOut exact w u).threatOn u' = m.threatOn u' -
      (Pi.single u (if m.isOnline u then m.tempOn u else 0) : ℕ → ℚ) u' := by
  rw [tauntFadeOut, isOnline]
  cases hfind : m.getReferenceByTarget m.threatList u with
  | none =>
    rw [isSome_none, if_neg Bool.false_ne_true, Pi.single_zero, Pi.zero_apply, sub_zero]
  | some p =>
    obtain ⟨-, r, hr, rfl⟩ := getReferenceByTarget_eq_some hfind
    rw [isSome_some, if_pos rfl, h.tempOn_eq hr]
    dsimp only
    rw [resetTempThreat, hr]
    dsimp only
    by_cases hzero : r.tempThreatModifier = 0
    · have hisZero : exact.isZero r.tempThreatModifier = true := decide_eq_true hzero
      rw [hisZero, if_pos rfl, hzero, Pi.single_zero, Pi.zero_apply, sub_zero]
    · have hisZero : exact.isZero r.tempThreatModifier = false := decide_eq_false hzero
      rw [hisZero, if_neg Bool.false_ne_true]
      have h' := h.changeThreat (o := exact) (w := w) p (exact.neg r.tempThreatModifier)
      have hmoves := moves_changeThreat h w hr (exact.neg r.tempThreatModifier)
      obtain ⟨s, hs, -⟩ := exists_changeThreat h w hr (exact.neg r.tempThreatModifier)
      rw [hs]
      rw [(setTemp_spec h' hs exact.zero).1, hmoves.threat]
      by_cases hu : u' = r.unitGuid
      · rw [hu, Pi.single_eq_same, Pi.single_eq_same]
        exact (sub_eq_add_neg _ _).symm
      · rw [Pi.single_eq_of_ne hu, Pi.single_eq_of_ne hu, add_zero, sub_zero]

end ThreatManager

end MistyWorld
