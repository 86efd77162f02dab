import MistyWorld.ThreatList

/-!
# The loop over the threat list ends

`resetAllAggro` goes over the online list while the threat it sets may bring references to the end
of the list : those of the owners of the unit, and of theirs. A reference appends less than its own
weight (`grows_setThreat`), so that the weight of what is left of the list falls, and the loop comes
to its end (`resetLoop_end`).
-/

open List

namespace MistyWorld

namespace ThreatManager

variable {F : Type*} {o : ThreatOps F} {w : ThreatWorld} {m : ThreatManager F} {p q u : ℕ}
  {r s : HostileReference F}

/-! ## Growing lists -/

/-- The online list grows at its end only, by no more than a weight, and the references keep their
units. -/
structure Grows (w : ThreatWorld) (n : ℕ) (m m' : ThreatManager F) : Prop where
  guid : ∀ p r, m.refs p = some r → ∃ s, m'.refs p = some s ∧ s.unitGuid = r.unitGuid
  list : ∃ added, m'.threatList = m.threatList ++ added ∧ m'.weight w added ≤ n

variable {m' m'' : ThreatManager F} {n k : ℕ}

theorem Grows.same (hguid : ∀ p r, m.refs p = some r →
    ∃ s, m'.refs p = some s ∧ s.unitGuid = r.unitGuid) (hlist : m'.threatList = m.threatList) :
    Grows w 0 m m' :=
  ⟨hguid, [], by rw [hlist, append_nil], le_refl 0⟩

theorem Grows.refl (w : ThreatWorld) (m : ThreatManager F) : Grows w 0 m m :=
  Grows.same (fun _ r hr => ⟨r, hr, rfl⟩) rfl

theorem Grows.mono (h : Grows w n m m') (hle : n ≤ k) : Grows w k m m' :=
  ⟨h.guid, h.list.imp fun _ hadded => ⟨hadded.1, hadded.2.trans hle⟩⟩

theorem Grows.weightOf (h : Grows w n m m') (hr : m.refs p = some r) :
    m'.weightOf w p = m.weightOf w p := by
  obtain ⟨s, hs, hguid⟩ := h.guid p r hr
  rw [ThreatManager.weightOf, ThreatManager.weightOf, hr, hs]
  dsimp only
  rw [hguid]

theorem Grows.weight (h : Grows w n m m') {l : List ℕ}
    (hl : ∀ p ∈ l, ∃ r, m.refs p = some r) : m'.weight w l = m.weight w l := by
  rw [ThreatManager.weight, ThreatManager.weight]
  congr 1
  refine map_congr_left fun p hp => ?_
  obtain ⟨r, hr⟩ := hl p hp
  exact h.weightOf hr

theorem weight_append (m : ThreatManager F) (l1 l2 : List ℕ) :
    m.weight w (l1 ++ l2) = m.weight w l1 + m.weight w l2 := by
  rw [ThreatManager.weight, map_append, sum_append]
  rfl

theorem Grows.trans (h : Grows w n m m') (h' : Grows w k m' m'') (hordered : m'.Ordered) :
    Grows w (n + k) m m'' := by
  obtain ⟨added, hlist, hweight⟩ := h.list
  obtain ⟨added', hlist', hweight'⟩ := h'.list
  refine ⟨fun p r hr => ?_, added ++ added', ?_, ?_⟩
  · obtain ⟨s, hs, hguid⟩ := h.guid p r hr
    obtain ⟨t, ht, hguid'⟩ := h'.guid p s hs
    exact ⟨t, ht, hguid'.trans hguid⟩
  · rw [hlist', hlist, append_assoc]
  · have hlive : ∀ p ∈ added, ∃ r, m'.refs p = some r := fun p hp =>
      hordered.exists_ref (hlist ▸ mem_append_right _ hp)
    rw [weight_append, h'.weight hlive]
    exact Nat.add_le_add hweight hweight'

theorem grows_setRef (hr : m.refs p = some r) (hguid : s.unitGuid = r.unitGuid) :
    Grows w 0 m (m.setRef p s) := by
  refine Grows.same (fun q r' hq => ?_) rfl
  by_cases hqp : q = p
  · subst hqp
    rw [hr, Option.some.injEq] at hq
    subst hq
    exact ⟨s, setRef_self m q s, hguid⟩
  · exact ⟨r', by rwa [setRef_of_ne m hqp], rfl⟩

theorem grows_threatChange (m : ThreatManager F) (p : ℕ) (value : F) :
    Grows w 0 m (m.processThreatEvent o p (.threatChange value)) := by
  rw [processThreatEvent]
  split
  · exact Grows.same (fun _ r hr => ⟨r, hr, rfl⟩) rfl
  · exact Grows.refl w m

/-- A reference that comes online is appended. -/
theorem grows_goOnline (hr : m.refs p = some r) :
    Grows w (m.weightOf w p) m (m.goOnline o p r) := by
  have hset : Grows w 0 m (m.setRef p { r with online := true }) := grows_setRef hr rfl
  refine ⟨hset.guid, [p], rfl, ?_⟩
  have hweight : (m.goOnline o p r).weightOf w p = m.weightOf w p := hset.weightOf hr
  rw [ThreatManager.weight, map_singleton, sum_singleton, hweight]

theorem grows_updateOnlineStatus (h : m.Ordered) (hr : m.refs p = some r)
    (hoff : r.online = false) : Grows w (m.weightOf w p) m (m.updateOnlineStatus o w p) := by
  rw [updateOnlineStatus, h.heap.relink, hr]
  dsimp only
  have hset : Grows w 0 m (m.setRef p { r with accessible := (onlineStatus w r).2 }) :=
    grows_setRef hr rfl
  rw [setAccessibleState_eq hr, setOnlineOfflineState_eq (setRef_self m p _)]
  split_ifs with hsame honline
  · exact hset.mono (Nat.zero_le _)
  · have hgo := grows_goOnline (o := o) (w := w)
      (setRef_self m p { r with accessible := (onlineStatus w r).2 })
    rw [hset.weightOf hr] at hgo
    have hordered := h.setRef (s := { r with accessible := (onlineStatus w r).2 }) hr rfl rfl rfl
    rw [← zero_add (m.weightOf w p)]
    exact hset.trans hgo hordered
  · rw [Bool.not_eq_true] at honline
    exact absurd (hoff.trans honline.symm) hsame

variable {toOwner : ThreatManager F → ThreatManager F}

/-- What a change of the threat of a reference appends : itself if it was offline, and what is done
for the owner. -/
theorem grows_refAddThreat (h : m.Ordered) (hr : m.refs p = some r)
    (hgrows : ∀ m : ThreatManager F, m.Ordered → Grows w k m (toOwner m)) (modThreat : F) :
    Grows w ((if r.online then 0 else m.weightOf w p) + k) m
      (m.refAddThreat o w toOwner p modThreat) := by
  have hset : (m.setRef p { r with threat := o.add r.threat modThreat }).Ordered :=
    h.setRef hr rfl rfl rfl
  have hgset : Grows w 0 m (m.setRef p { r with threat := o.add r.threat modThreat }) :=
    grows_setRef hr rfl
  refine refAddThreat_rule (P := fun m' => m'.Ordered ∧
    Grows w (if r.online then 0 else m.weightOf w p) m m') hr modThreat ?_
    (fun m' h' => ⟨h'.1.threatChange p modThreat,
      h'.2.trans (grows_threatChange m' p modThreat) h'.1⟩)
    (fun m' h' => h'.2.trans (hgrows m' h'.1) h'.1) fun m' h' => h'.2.mono (Nat.le_add_right _ k)
  split
  · exact ⟨hset, hgset⟩
  · rename_i hoff
    refine ⟨hset.updateOnlineStatus p, ?_⟩
    have hgo := grows_updateOnlineStatus (o := o) (w := w) hset
      (setRef_self m p { r with threat := o.add r.threat modThreat }) (Bool.eq_false_iff.2 hoff)
    rw [hgset.weightOf hr] at hgo
    have := hgset.trans hgo hset
    rwa [zero_add] at this

theorem weightOf_eq (hr : m.refs p = some r) :
    m.weightOf w p = 2 ^ (w.owners r.unitGuid).length := by
  rw [ThreatManager.weightOf, hr]

theorem grows_newReference (h : m.Ordered) :
    Grows w (2 ^ (w.owners u).length) m (m.newReference o u) := by
  refine ⟨fun p r hr => ?_, [m.nextRef], rfl, ?_⟩
  · have hne : p ≠ m.nextRef := fun heq => absurd (h.heap.fresh p r hr) (heq ▸ lt_irrefl _)
    exact ⟨r, (setRef_of_ne m hne _).trans hr, rfl⟩
  · rw [ThreatManager.weight, map_singleton, sum_singleton, weightOf_eq (newReference_self o m u)]

/-- What threat on a unit appends : a reference of the unit, and what is done for the owner. -/
theorem grows_addThreatTo (h : m.Ordered) (hgm : w.isGM u = false)
    (hgrows : ∀ m : ThreatManager F, m.Ordered → Grows w k m (toOwner m)) (threat : F) :
    Grows w (2 ^ (w.owners u).length + k) m (m.addThreatTo o w toOwner u threat) := by
  refine addThreatTo_rule h u threat (fun p r hr hguid => ?_) fun hnone hnew => ?_
  · refine (grows_refAddThreat h hr hgrows threat).mono (Nat.add_le_add_right ?_ k)
    rw [weightOf_eq hr, hguid]
    split
    · exact Nat.zero_le _
    · exact le_refl _
  · have hadd := grows_refAddThreat (o := o) hnew (newReference_self o m u) hgrows threat
    rw [if_pos rfl, zero_add] at hadd
    rw [hgm, if_neg Bool.false_ne_true]
    exact (grows_newReference h).trans hadd hnew

/-- What the owners up the chain append. -/
theorem grows_addOwners (o : ThreatOps F) (w : ThreatWorld) : ∀ {owners : List ℕ} {u : ℕ},
    w.owners u = owners → ∀ m : ThreatManager F, m.Ordered →
      Grows w (2 ^ owners.length - 1) m (addOwners o w owners m)
  | [], _, _, m, _ => Grows.refl w m
  | owner :: owners, u, hu, m, h => by
    rw [addOwners]
    split
    · rename_i hvalid
      have hgm : w.isGM owner = false := by
        have := hvalid.2
        rw [ThreatWorld.isValidProcess] at this
        simp only [Bool.and_eq_true, Bool.not_eq_true'] at this
        exact this.1.1.1.1.2
      have htail := w.owners_tail hu
      refine (grows_addThreatTo h hgm (grows_addOwners o w htail) o.zero).mono ?_
      rw [htail, length_cons, Nat.pow_succ]
      omega
    · exact (Grows.refl w m).mono (Nat.zero_le _)

theorem grows_setThreat (h : m.Ordered) (hp : p ∈ m.threatList) (threat : F) :
    Grows w (m.weightOf w p - 1) m (m.setThreat o w p threat) := by
  obtain ⟨r, hr, honline⟩ := (h.mem_threatList p).1 hp
  have howners := grows_addOwners o w (u := r.unitGuid) rfl
  have hgrows := grows_refAddThreat (o := o) h hr howners (o.sub threat r.threat)
  rw [honline, if_pos rfl, zero_add] at hgrows
  rw [setThreat, hr]
  dsimp only
  rw [changeThreat, hr, weightOf_eq hr]
  exact hgrows

/-! ## The loop -/

/-- Each reference that is left has some weight. -/
theorem Ordered.length_le_of_weight (h : m.Ordered) {i : ℕ}
    (hn : m.weight w (m.threatList.drop i) = 0) : m.threatList.length ≤ i := by
  by_contra hlt
  rw [not_le] at hlt
  obtain ⟨r, hr⟩ := h.exists_ref (getElem_mem hlt)
  rw [drop_eq_getElem_cons hlt, weight, map_cons, sum_cons, weightOf_eq hr] at hn
  have := Nat.one_le_two_pow (n := (w.owners r.unitGuid).length)
  omega

/-- The weight of what is left of the list falls with each step of the loop. -/
theorem Ordered.weight_setThreat (h : m.Ordered) {n i : ℕ} (hp : m.threatList[i]? = some p)
    (threat : F) (hn : m.weight w (m.threatList.drop i) ≤ n + 1) :
    (m.setThreat o w p threat).weight w ((m.setThreat o w p threat).threatList.drop (i + 1)) ≤
      n := by
  obtain ⟨hlt, hget⟩ := List.getElem?_eq_some_iff.1 hp
  have hmem : p ∈ m.threatList := hget ▸ getElem_mem hlt
  obtain ⟨r, hr⟩ := h.exists_ref hmem
  have hgrows := grows_setThreat (o := o) (w := w) h hmem threat
  obtain ⟨added, hlist, hadded⟩ := hgrows.list
  have hrest : ∀ q ∈ m.threatList.drop (i + 1), ∃ r, m.refs q = some r := fun q hq =>
    h.exists_ref (mem_of_mem_drop hq)
  rw [hlist, drop_append_of_le_length hlt, weight_append, hgrows.weight hrest]
  rw [drop_eq_getElem_cons hlt, hget, weight, map_cons, sum_cons] at hn
  rw [weight]
  have := Nat.one_le_two_pow (n := (w.owners r.unitGuid).length)
  rw [weightOf_eq hr] at hn hadded
  omega

/-- The loop has come to the end of the list when its steps are used up : more steps change
nothing. -/
theorem resetLoop_end (o : ThreatOps F) (w : ThreatWorld) (k : ℕ) :
    ∀ (n i : ℕ) {m : ThreatManager F}, m.Ordered → m.weight w (m.threatList.drop i) ≤ n →
      resetLoop o w (n + k) i m = resetLoop o w n i m
  | 0, i, m, h, hn => by
    have hend := List.getElem?_eq_none_iff.2 (h.length_le_of_weight (Nat.le_zero.1 hn))
    rw [zero_add]
    cases k with
    | zero => rfl
    | succ k =>
      have hstop : resetLoop o w (k + 1) i m = m := by rw [resetLoop, hend]
      rw [hstop, resetLoop]
  | n + 1, i, m, h, hn => by
    rw [Nat.succ_add, resetLoop, resetLoop]
    cases hp : m.threatList[i]? with
    | none => rfl
    | some p =>
      exact resetLoop_end o w k n (i + 1) (h.setThreat p o.zero) (h.weight_setThreat hp o.zero hn)

end ThreatManager

end MistyWorld
