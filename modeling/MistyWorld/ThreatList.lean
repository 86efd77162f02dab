import MistyWorld.Run
import MistyWorld.Threat

/-!
# The threat list

The methods of the hostile references and the events they fire keep the two lists of a threat
manager in step with the flags of the references (`Ordered`), and so does every run of requests
(`threat_run`) : each reference is in one list, by its status, units have one reference each, and
the victim is online.
-/

open Option Function List Machine

namespace MistyWorld

namespace ThreatManager

variable {F : Type*}

/-! ## The order of the lists -/

/-- Units have one reference each, which is linked to them. -/
structure Heap (m : ThreatManager F) : Prop where
  fresh : ∀ p r, m.refs p = some r → p < m.nextRef
  eq_of_guid : ∀ p q r s, m.refs p = some r → m.refs q = some s → r.unitGuid = s.unitGuid → p = q
  target : ∀ p r, m.refs p = some r → r.target = some r.unitGuid

/-- Each reference is in the list of its status, once, and the victim is online. -/
structure Ordered (m : ThreatManager F) : Prop where
  heap : m.Heap
  threatList_nodup : m.threatList.Nodup
  offlineList_nodup : m.offlineList.Nodup
  mem_threatList : ∀ p, p ∈ m.threatList ↔ ∃ r, m.refs p = some r ∧ r.online = true
  mem_offlineList : ∀ p, p ∈ m.offlineList ↔ ∃ r, m.refs p = some r ∧ r.online = false
  victim : ∀ p, m.currentVictim = some p → p ∈ m.threatList

variable {o : ThreatOps F} {w : ThreatWorld} {m : ThreatManager F} {p q u : ℕ}
  {r s : HostileReference F}

theorem setRef_self (m : ThreatManager F) (p : ℕ) (r : HostileReference F) :
    (m.setRef p r).refs p = some r := by
  simp [setRef]

theorem setRef_of_ne (m : ThreatManager F) (h : q ≠ p) (r : HostileReference F) :
    (m.setRef p r).refs q = m.refs q := by
  simp [setRef, h]

theorem setRef_setRef (m : ThreatManager F) (p : ℕ) (r s : HostileReference F) :
    (m.setRef p r).setRef p s = m.setRef p s := by
  rw [ThreatManager.setRef, ThreatManager.setRef, ThreatManager.setRef, update_idem]

theorem ordered_empty : ({} : ThreatManager F).Ordered where
  heap :=
    { fresh := fun _ _ h => by cases h
      eq_of_guid := fun _ _ _ _ h => by cases h
      target := fun _ _ h => by cases h }
  threatList_nodup := nodup_nil
  offlineList_nodup := nodup_nil
  mem_threatList := fun p => by simp
  mem_offlineList := fun p => by simp
  victim := fun _ h => by cases h

/-- Two managers that differ in the dirty flag alone. -/
theorem Ordered.setDirty (h : m.Ordered) (dirty : Bool) : Ordered { m with dirty := dirty } :=
  ⟨⟨h.heap.fresh, h.heap.eq_of_guid, h.heap.target⟩, h.threatList_nodup, h.offlineList_nodup,
    h.mem_threatList, h.mem_offlineList, h.victim⟩

/-- A reference may change, but for its unit and its link. -/
theorem Heap.setRef (h : m.Heap) (hr : m.refs p = some r) (hguid : s.unitGuid = r.unitGuid)
    (htarget : s.target = r.target) : (m.setRef p s).Heap := by
  have hold : ∀ q r', (m.setRef p s).refs q = some r' →
      ∃ r0, m.refs q = some r0 ∧ r'.unitGuid = r0.unitGuid ∧ r'.target = r0.target := by
    intro q r' hq
    by_cases hqp : q = p
    · subst hqp
      rw [setRef_self, some.injEq] at hq
      subst hq
      exact ⟨r, hr, hguid, htarget⟩
    · rw [setRef_of_ne m hqp] at hq
      exact ⟨r', hq, rfl, rfl⟩
  refine ⟨fun q r' hq => ?_, fun q q' r' s' hq hq' heq => ?_, fun q r' hq => ?_⟩
  · obtain ⟨r0, hq, -⟩ := hold q r' hq
    exact h.fresh q r0 hq
  · obtain ⟨r0, hq, hr0, -⟩ := hold q r' hq
    obtain ⟨s0, hq', hs0, -⟩ := hold q' s' hq'
    exact h.eq_of_guid q q' r0 s0 hq hq' (hr0.symm.trans (heq.trans hs0))
  · obtain ⟨r0, hq, hr0, htarget⟩ := hold q r' hq
    rw [htarget, hr0]
    exact h.target q r0 hq

/-- The references with a status, after one is written. -/
theorem exists_setRef (m : ThreatManager F) (s : HostileReference F) (p q : ℕ) (b : Bool) :
    (∃ r', (m.setRef p s).refs q = some r' ∧ r'.online = b) ↔
      (q = p ∧ s.online = b) ∨ (q ≠ p ∧ ∃ r', m.refs q = some r' ∧ r'.online = b) := by
  by_cases hq : q = p
  · subst hq
    rw [setRef_self]
    simp
  · rw [setRef_of_ne m hq]
    simp [hq]

/-- A reference may change, but for its unit, its link and its status. -/
theorem Ordered.setRef (h : m.Ordered) (hr : m.refs p = some r) (hguid : s.unitGuid = r.unitGuid)
    (htarget : s.target = r.target) (honline : s.online = r.online) : (m.setRef p s).Ordered := by
  have hflag : ∀ q b, (∃ r', (m.setRef p s).refs q = some r' ∧ r'.online = b) ↔
      ∃ r', m.refs q = some r' ∧ r'.online = b := by
    intro q b
    rw [exists_setRef]
    by_cases hq : q = p
    · subst hq
      simp [hr, honline]
    · simp [hq]
  exact ⟨h.heap.setRef hr hguid htarget, h.threatList_nodup, h.offlineList_nodup,
    fun q => (h.mem_threatList q).trans (hflag q true).symm,
    fun q => (h.mem_offlineList q).trans (hflag q false).symm, h.victim⟩

theorem Ordered.threatChange (h : m.Ordered) (p : ℕ) (value : F) :
    (m.processThreatEvent o p (.threatChange value)).Ordered := by
  rw [processThreatEvent]
  split
  · exact h.setDirty true
  · exact h

theorem Ordered.setAccessibleState (h : m.Ordered) (p : ℕ) (isAccessible : Bool) :
    (m.setAccessibleState o p isAccessible).Ordered := by
  rw [ThreatManager.setAccessibleState]
  split
  · exact h
  · rename_i r hr
    split
    · exact h
    · exact h.setRef hr rfl rfl rfl

/-- What `setAccessibleState` does to a reference. -/
theorem setAccessibleState_eq (hr : m.refs p = some r) (isAccessible : Bool) :
    m.setAccessibleState o p isAccessible = m.setRef p { r with accessible := isAccessible } := by
  rw [ThreatManager.setAccessibleState, hr]
  dsimp only
  split
  · rename_i heq
    subst heq
    rw [ThreatManager.setRef, update_eq_self_iff.2 hr.symm]
  · rfl

/-! ## Changes of the status -/

/-- The manager after a reference went offline. -/
def goOffline (m : ThreatManager F) (p : ℕ) (r : HostileReference F) : ThreatManager F :=
  { m.setRef p { r with online := false, accessible := false } with
    currentVictim := if m.currentVictim = some p then none else m.currentVictim
    dirty := m.dirty || m.currentVictim = some p
    threatList := m.threatList.filter (· ≠ p)
    offlineList := m.offlineList ++ [p] }

/-- The manager after a reference came online. -/
def goOnline (o : ThreatOps F) (m : ThreatManager F) (p : ℕ) (r : HostileReference F) :
    ThreatManager F :=
  { m.setRef p { r with online := true } with
    dirty := m.dirty || (m.currentVictim.bind (m.setRef p { r with online := true }).refs).any
      fun v => o.lt (o.times11 v.threat) r.threat
    threatList := m.threatList ++ [p]
    offlineList := m.offlineList.filter (· ≠ p) }

/-- What `setOnlineOfflineState` does to a reference. -/
theorem setOnlineOfflineState_eq (hr : m.refs p = some r) (isOnline : Bool) :
    m.setOnlineOfflineState o p isOnline =
      if r.online = isOnline then m
      else if isOnline then m.goOnline o p r else m.goOffline p r := by
  rw [ThreatManager.setOnlineOfflineState, hr]
  dsimp only
  split_ifs with hsame honline
  · rfl
  · subst honline
    rw [processThreatEvent, setRef_self]
    rfl
  · rw [Bool.not_eq_true] at honline
    subst honline
    rw [setAccessibleState_eq (setRef_self m p _), setRef_setRef,
      processThreatEvent, setRef_self]
    rfl

theorem Ordered.goOffline (h : m.Ordered) (hr : m.refs p = some r) (hon : r.online = true) :
    (m.goOffline p r).Ordered := by
  have hp : p ∉ m.offlineList := by
    rw [h.mem_offlineList, hr]
    simp [hon]
  have hheap := h.heap.setRef (s := { r with online := false, accessible := false }) hr rfl rfl
  refine ⟨⟨hheap.fresh, hheap.eq_of_guid, hheap.target⟩, h.threatList_nodup.filter _,
    h.offlineList_nodup.append (nodup_singleton p) (by simpa using hp),
    fun q => ?_, fun q => ?_, fun q hq => ?_⟩
  · rw [ThreatManager.goOffline]
    rw [exists_setRef, mem_filter, h.mem_threatList, decide_eq_true_iff]
    simp [and_comm]
  · rw [ThreatManager.goOffline]
    rw [exists_setRef, mem_append, mem_singleton]
    by_cases hqp : q = p
    · simp [hqp]
    · simp [hqp, h.mem_offlineList]
  · rw [ThreatManager.goOffline] at hq ⊢
    split_ifs at hq with hvictim
    refine mem_filter.2 ⟨h.victim q hq, decide_eq_true fun hqp => hvictim ?_⟩
    rw [← hqp]
    exact hq

theorem Ordered.goOnline (h : m.Ordered) (hr : m.refs p = some r) (hoff : r.online = false) :
    (m.goOnline o p r).Ordered := by
  have hp : p ∉ m.threatList := by
    rw [h.mem_threatList, hr]
    simp [hoff]
  have hheap := h.heap.setRef (s := { r with online := true }) hr rfl rfl
  refine ⟨⟨hheap.fresh, hheap.eq_of_guid, hheap.target⟩,
    h.threatList_nodup.append (nodup_singleton p) (by simpa using hp),
    h.offlineList_nodup.filter _, fun q => ?_, fun q => ?_,
    fun q hq => mem_append_left _ (h.victim q hq)⟩
  · rw [ThreatManager.goOnline]
    rw [exists_setRef, mem_append, mem_singleton]
    by_cases hqp : q = p
    · simp [hqp]
    · simp [hqp, h.mem_threatList]
  · rw [ThreatManager.goOnline]
    rw [exists_setRef, mem_filter, h.mem_offlineList, decide_eq_true_iff]
    simp [and_comm]

/-- The status of a reference changes, and it goes over to the other list. -/
theorem Ordered.setOnlineOfflineState (h : m.Ordered) (p : ℕ) (isOnline : Bool) :
    (m.setOnlineOfflineState o p isOnline).Ordered := by
  cases hr : m.refs p with
  | none =>
    rw [ThreatManager.setOnlineOfflineState, hr]
    exact h
  | some r =>
    rw [setOnlineOfflineState_eq hr]
    split_ifs with hsame honline
    · exact h
    · subst honline
      exact h.goOnline hr (Bool.not_eq_true _ ▸ hsame)
    · rw [Bool.not_eq_true] at honline
      subst honline
      exact h.goOffline hr (Bool.not_eq_false _ ▸ hsame)

/-- The references of the manager are linked. -/
theorem Heap.relink (h : m.Heap) (w : ThreatWorld) (p : ℕ) : m.relink w p = m := by
  rw [ThreatManager.relink]
  split
  · rfl
  · rename_i r hr
    rw [if_neg]
    rintro ⟨hnone, -⟩
    rw [h.target p r hr] at hnone
    cases hnone

theorem Ordered.updateOnlineStatus (h : m.Ordered) (p : ℕ) :
    (m.updateOnlineStatus o w p).Ordered := by
  rw [ThreatManager.updateOnlineStatus, h.heap.relink]
  split
  · exact h
  · exact (h.setAccessibleState p _).setOnlineOfflineState p _

/-! ## Threat keeps the order -/

/-- What is done for the owner keeps the order. -/
def KeepsOrder (f : ThreatManager F → ThreatManager F) : Prop :=
  ∀ m, m.Ordered → (f m).Ordered

variable {toOwner : ThreatManager F → ThreatManager F}

/-- How threat is added to a reference : it is written, its status is looked for if it is offline,
the list is told of the change, and then something is done for the owner. -/
theorem refAddThreat_rule {P Q : ThreatManager F → Prop} (hr : m.refs p = some r) (modThreat : F)
    (hset : P (if r.online then m.setRef p { r with threat := o.add r.threat modThreat }
      else (m.setRef p { r with threat := o.add r.threat modThreat }).updateOnlineStatus o w p))
    (hevent : ∀ m, P m → P (m.processThreatEvent o p (.threatChange modThreat)))
    (howner : ∀ m, P m → Q (toOwner m)) (hend : ∀ m, P m → Q m) :
    Q (m.refAddThreat o w toOwner p modThreat) := by
  rw [ThreatManager.refAddThreat, hr]
  dsimp only
  generalize (if r.online then m.setRef p { r with threat := o.add r.threat modThreat }
    else (m.setRef p { r with threat := o.add r.threat modThreat }).updateOnlineStatus o w p) = m1
    at hset
  split
  · split
    · exact howner m1 hset
    · exact hend m1 hset
  · split
    · exact howner _ (hevent m1 hset)
    · exact hend _ (hevent m1 hset)

theorem Ordered.refAddThreat (h : m.Ordered) (hf : KeepsOrder toOwner) (p : ℕ) (modThreat : F) :
    (m.refAddThreat o w toOwner p modThreat).Ordered := by
  cases hr : m.refs p with
  | none =>
    rw [ThreatManager.refAddThreat, hr]
    exact h
  | some r =>
    have hset : (m.setRef p { r with threat := o.add r.threat modThreat }).Ordered :=
      h.setRef hr rfl rfl rfl
    refine refAddThreat_rule hr modThreat ?_ (fun m' h' => h'.threatChange p modThreat) hf
      fun m' h' => h'
    split
    · exact hset
    · exact hset.updateOnlineStatus p

theorem getReferenceByTarget_eq_none {list : List ℕ}
    (h : m.getReferenceByTarget list u = none) (hp : p ∈ list) (hr : m.refs p = some r) :
    r.unitGuid ≠ u := by
  have := List.find?_eq_none.1 h p hp
  rw [hr, any_some, beq_iff_eq] at this
  exact this

theorem getReferenceByTarget_eq_some {list : List ℕ} (h : m.getReferenceByTarget list u = some p) :
    p ∈ list ∧ ∃ r, m.refs p = some r ∧ r.unitGuid = u := by
  refine ⟨mem_of_find?_eq_some h, ?_⟩
  have hfound := List.find?_some h
  cases hr : m.refs p with
  | none =>
    rw [hr] at hfound
    cases hfound
  | some r =>
    rw [hr, any_some, beq_iff_eq] at hfound
    exact ⟨r, rfl, hfound⟩

theorem newReference_self (o : ThreatOps F) (m : ThreatManager F) (u : ℕ) :
    (m.newReference o u).refs m.nextRef = some
      { unitGuid := u, target := some u, threat := o.zero, tempThreatModifier := o.zero } :=
  setRef_self m _ _

section

variable (h : m.Ordered)
include h

/-- Every reference of the manager is in one of the lists. -/
theorem Ordered.mem_lists (hr : m.refs p = some r) : p ∈ m.threatList ∨ p ∈ m.offlineList := by
  cases honline : r.online with
  | true => exact .inl ((h.mem_threatList p).2 ⟨r, hr, honline⟩)
  | false => exact .inr ((h.mem_offlineList p).2 ⟨r, hr, honline⟩)

/-- A unit that is found in no list has no reference. -/
theorem Ordered.not_referenced {v : ℕ} (honline : m.getReferenceByTarget m.threatList v = none)
    (hoffline : m.getReferenceByTarget m.offlineList v = none) :
    ∀ p r, m.refs p = some r → r.unitGuid ≠ v := by
  intro p r hr
  rcases h.mem_lists hr with hp | hp
  · exact getReferenceByTarget_eq_none honline hp hr
  · exact getReferenceByTarget_eq_none hoffline hp hr

/-- The references of the list are in the heap. -/
theorem Ordered.exists_ref (hp : p ∈ m.threatList) : ∃ r, m.refs p = some r := by
  obtain ⟨r, hr, -⟩ := (h.mem_threatList p).1 hp
  exact ⟨r, hr⟩

theorem Ordered.newReference (hnew : ∀ p r, m.refs p = some r → r.unitGuid ≠ u) :
    (m.newReference o u).Ordered := by
  have hfresh : m.refs m.nextRef = none := by
    cases hr : m.refs m.nextRef with
    | none => rfl
    | some r => exact absurd (h.heap.fresh _ r hr) (lt_irrefl _)
  have hne : ∀ q r, m.refs q = some r → q ≠ m.nextRef := by
    rintro q r hq rfl
    rw [hfresh] at hq
    cases hq
  have hold : ∀ q r, (m.newReference o u).refs q = some r →
      (q = m.nextRef ∧ r.unitGuid = u ∧ r.target = some u) ∨ m.refs q = some r := by
    intro q r hq
    by_cases hqn : q = m.nextRef
    · subst hqn
      rw [newReference_self, some.injEq] at hq
      subst hq
      exact .inl ⟨rfl, rfl, rfl⟩
    · refine .inr ?_
      rw [← setRef_of_ne m hqn]
      exact hq
  refine ⟨⟨fun q r hq => ?_, fun q q' r s hq hq' heq => ?_, fun q r hq => ?_⟩,
    h.threatList_nodup.append (nodup_singleton _) ?_, h.offlineList_nodup, fun q => ?_,
    fun q => ?_, fun q hq => mem_append_left _ (h.victim q hq)⟩
  · rcases hold q r hq with ⟨rfl, -⟩ | hq
    · exact Nat.lt_succ_self _
    · exact (h.heap.fresh q r hq).trans (Nat.lt_succ_self _)
  · rcases hold q r hq with ⟨rfl, hr, -⟩ | hq
    · rcases hold q' s hq' with ⟨rfl, -⟩ | hq'
      · rfl
      · exact absurd (heq.symm.trans hr) (hnew q' s hq')
    · rcases hold q' s hq' with ⟨rfl, hs, -⟩ | hq'
      · exact absurd (heq.trans hs) (hnew q r hq)
      · exact h.heap.eq_of_guid q q' r s hq hq' heq
  · rcases hold q r hq with ⟨rfl, hr, ht⟩ | hq
    · rw [ht, hr]
    · exact h.heap.target q r hq
  · rw [disjoint_singleton]
    intro hmem
    obtain ⟨r, hr, -⟩ := (h.mem_threatList _).1 hmem
    exact hne _ r hr rfl
  · rw [ThreatManager.newReference]
    rw [exists_setRef, mem_append, mem_singleton, h.mem_threatList]
    by_cases hq : q = m.nextRef
    · simp [hq]
    · simp [hq]
  · rw [ThreatManager.newReference]
    rw [exists_setRef]
    refine (h.mem_offlineList q).trans ?_
    by_cases hq : q = m.nextRef
    · simp [hq, hfresh]
    · simp [hq]

/-- How threat is added to a unit : to his reference, or to a new one, which goes offline if he is a
game master. -/
theorem addThreatTo_rule {Q : ThreatManager F → Prop} (u : ℕ) (threat : F)
    (hfound : ∀ p r, m.refs p = some r → r.unitGuid = u → Q (m.refAddThreat o w toOwner p threat))
    (hnew : (∀ p r, m.refs p = some r → r.unitGuid ≠ u) → (m.newReference o u).Ordered →
      Q (if w.isGM u then ((m.newReference o u).refAddThreat o w toOwner m.nextRef
          threat).setOnlineOfflineState o m.nextRef false
        else (m.newReference o u).refAddThreat o w toOwner m.nextRef threat)) :
    Q (m.addThreatTo o w toOwner u threat) := by
  rw [ThreatManager.addThreatTo]
  split
  · rename_i p honline
    obtain ⟨-, r, hr, hguid⟩ := getReferenceByTarget_eq_some honline
    exact hfound p r hr hguid
  · rename_i honline
    split
    · rename_i p hoffline
      obtain ⟨-, r, hr, hguid⟩ := getReferenceByTarget_eq_some hoffline
      exact hfound p r hr hguid
    · rename_i hoffline
      have hnone := h.not_referenced honline hoffline
      exact hnew hnone (h.newReference hnone)

theorem Ordered.addThreatTo (hf : KeepsOrder toOwner) (victim : ℕ) (threat : F) :
    (m.addThreatTo o w toOwner victim threat).Ordered := by
  refine addThreatTo_rule h victim threat (fun p _ _ _ => h.refAddThreat hf p threat)
    fun _ hnew => ?_
  split
  · exact (hnew.refAddThreat hf m.nextRef threat).setOnlineOfflineState m.nextRef false
  · exact hnew.refAddThreat hf m.nextRef threat

end

/-- Up the chain of owners. -/
theorem keepsOrder_addOwners (o : ThreatOps F) (w : ThreatWorld) :
    ∀ owners : List ℕ, KeepsOrder (addOwners o w owners)
  | [], _, h => h
  | owner :: owners, m, h => by
    rw [addOwners]
    split
    · exact h.addThreatTo (keepsOrder_addOwners o w owners) owner o.zero
    · exact h

theorem Ordered.addThreat (h : m.Ordered) (victim : ℕ) (threat : F) :
    (m.addThreat o w victim threat).Ordered :=
  h.addThreatTo (keepsOrder_addOwners o w _) victim threat

theorem Ordered.changeThreat (h : m.Ordered) (p : ℕ) (modThreat : F) :
    (m.changeThreat o w p modThreat).Ordered := by
  rw [ThreatManager.changeThreat]
  split
  · exact h
  · exact h.refAddThreat (keepsOrder_addOwners o w _) p modThreat

theorem Ordered.setThreat (h : m.Ordered) (p : ℕ) (threat : F) :
    (m.setThreat o w p threat).Ordered := by
  rw [ThreatManager.setThreat]
  split
  · exact h
  · exact h.changeThreat p _

theorem Ordered.modifyThreatPercent (h : m.Ordered) (victim : ℕ) (percent : ℤ) :
    (m.modifyThreatPercent o w victim percent).Ordered := by
  rw [ThreatManager.modifyThreatPercent]
  split
  · exact h
  · split
    · exact h
    · exact h.changeThreat _ _

theorem Ordered.resetLoop : ∀ (n i : ℕ) {m : ThreatManager F}, m.Ordered →
    (ThreatManager.resetLoop o w n i m).Ordered
  | 0, _, _, h => h
  | n + 1, i, m, h => by
    rw [ThreatManager.resetLoop]
    split
    · exact h
    · exact Ordered.resetLoop n (i + 1) (h.setThreat _ o.zero)

section

variable (h : m.Ordered)
include h

theorem Ordered.resetAllAggro : (m.resetAllAggro o w).Ordered := by
  rw [ThreatManager.resetAllAggro]
  split
  · exact h
  · exact (Ordered.resetLoop (m.resetFuel w) 0 h).setDirty true

theorem Ordered.addTempThreat (p : ℕ) (threat : F) : (m.addTempThreat o w p threat).Ordered := by
  cases hr : m.refs p with
  | none =>
    rw [ThreatManager.addTempThreat, hr]
    exact h
  | some r =>
    have hset : (m.setRef p { r with tempThreatModifier := threat }).Ordered :=
      h.setRef hr rfl rfl rfl
    rw [ThreatManager.addTempThreat, hr]
    dsimp only
    split
    · exact hset
    · exact hset.changeThreat p threat

theorem Ordered.resetTempThreat (p : ℕ) : (m.resetTempThreat o w p).Ordered := by
  rw [ThreatManager.resetTempThreat]
  split
  · exact h
  · rename_i r hr
    split
    · exact h
    · have hchange := h.changeThreat (o := o) (w := w) p (o.neg r.tempThreatModifier)
      dsimp only
      split
      · exact hchange
      · rename_i s hs
        exact hchange.setRef hs rfl rfl rfl

theorem Ordered.tauntApply (taunter : ℕ) : (m.tauntApply o w taunter).Ordered := by
  rw [ThreatManager.tauntApply]
  split
  · exact h
  · split
    · split
      · exact h.addTempThreat _ _
      · exact h
    · exact h

theorem Ordered.tauntFadeOut (taunter : ℕ) : (m.tauntFadeOut o w taunter).Ordered := by
  rw [ThreatManager.tauntFadeOut]
  split
  · exact h
  · exact h.resetTempThreat _

end

/-! ## Victims and removals keep the order -/

theorem Ordered.setVictim (h : m.Ordered) {victim : Option ℕ}
    (hvictim : ∀ p, victim = some p → p ∈ m.threatList) :
    Ordered { m with currentVictim := victim } :=
  ⟨⟨h.heap.fresh, h.heap.eq_of_guid, h.heap.target⟩, h.threatList_nodup, h.offlineList_nodup,
    h.mem_threatList, h.mem_offlineList, hvictim⟩

theorem Ordered.forceVictim (h : m.Ordered) (taunter : ℕ) : (m.forceVictim taunter).Ordered := by
  rw [ThreatManager.forceVictim]
  split
  · exact h
  · rename_i p hp
    refine h.setVictim ?_
    rintro q ⟨rfl⟩
    exact (getReferenceByTarget_eq_some hp).1

/-- A reference that went offline. -/
theorem setOnlineOfflineState_false (hr : m.refs p = some r) :
    ∃ s, (m.setOnlineOfflineState o p false).refs p = some s ∧ s.online = false := by
  rw [setOnlineOfflineState_eq hr]
  split
  · rename_i hoff
    exact ⟨r, hr, hoff⟩
  · exact ⟨_, setRef_self m p _, rfl⟩

/-- An offline reference is taken out of the heap and of its list. -/
theorem Ordered.erase (h : m.Ordered) (hr : m.refs p = some r) (hoff : r.online = false) : Ordered
    { m with
      refs := Function.update m.refs p none
      offlineList := m.offlineList.filter (· ≠ p) } := by
  have hrefs : ∀ q r', Function.update m.refs p none q = some r' → q ≠ p ∧ m.refs q = some r' := by
    intro q r' hq
    by_cases hqp : q = p
    · subst hqp
      rw [update_self] at hq
      cases hq
    · rw [update_of_ne hqp] at hq
      exact ⟨hqp, hq⟩
  have hother : ∀ q b, (∃ r', Function.update m.refs p none q = some r' ∧ r'.online = b) ↔
      (∃ r', m.refs q = some r' ∧ r'.online = b) ∧ q ≠ p := by
    intro q b
    constructor
    · rintro ⟨r', hq, hb⟩
      obtain ⟨hne, hq⟩ := hrefs q r' hq
      exact ⟨⟨r', hq, hb⟩, hne⟩
    · rintro ⟨⟨r', hq, hb⟩, hne⟩
      exact ⟨r', by rwa [update_of_ne hne], hb⟩
  have hp : p ∉ m.threatList := by
    rw [h.mem_threatList, hr]
    simp [hoff]
  refine ⟨⟨fun q r' hq => h.heap.fresh q r' (hrefs q r' hq).2,
    fun q q' r' s' hq hq' => h.heap.eq_of_guid q q' r' s' (hrefs q r' hq).2 (hrefs q' s' hq').2,
    fun q r' hq => h.heap.target q r' (hrefs q r' hq).2⟩, h.threatList_nodup,
    h.offlineList_nodup.filter _, fun q => ?_, fun q => ?_, h.victim⟩
  · rw [hother]
    refine (and_iff_left_of_imp fun hq hqp => hp ?_).symm.trans
      (and_congr_left fun _ => h.mem_threatList q)
    rw [← hqp]
    exact hq
  · rw [hother, mem_filter, h.mem_offlineList, decide_eq_true_iff]

theorem removeFromList_offline (hr : m.refs p = some r) (hoff : r.online = false)
    (hvictim : m.currentVictim ≠ some p) : m.processThreatEvent o p .removeFromList =
      { m with offlineList := m.offlineList.filter (· ≠ p) } := by
  rw [processThreatEvent, hr]
  simp [hoff, hvictim]

theorem Ordered.removeReference (h : m.Ordered) (p : ℕ) : (m.removeReference o p).Ordered := by
  cases hr : m.refs p with
  | none =>
    rw [ThreatManager.removeReference, hr]
    exact h
  | some r =>
    have hoffline := h.setOnlineOfflineState (o := o) p false
    obtain ⟨s, hs, hoff⟩ := setOnlineOfflineState_false (o := o) hr
    rw [ThreatManager.removeReference, hr]
    dsimp only
    generalize m.setOnlineOfflineState o p false = m1 at hoffline hs
    have hvictim : m1.currentVictim ≠ some p := by
      intro hp
      obtain ⟨s', hs', hon⟩ := (hoffline.mem_threatList p).1 (hoffline.victim p hp)
      rw [hs, some.injEq] at hs'
      rw [← hs', hoff] at hon
      cases hon
    have herase := hoffline.erase hs hoff
    have hcut : (m1.setRef p { s with target := none }).refs p = some { s with target := none } :=
      setRef_self m1 p _
    rw [hs]
    rw [removeFromList_offline hcut hoff hvictim]
    simpa [ThreatManager.setRef] using herase

theorem Ordered.targetDestroyed (h : m.Ordered) (u : ℕ) : (m.targetDestroyed o u).Ordered := by
  have hloop : ∀ (l : List ℕ) (m : ThreatManager F), m.Ordered →
      (l.foldl (fun m p => m.removeReference o p) m).Ordered := by
    intro l
    induction l with
    | nil => exact fun m h => h
    | cons p l ih => exact fun m h => ih _ (h.removeReference p)
  exact hloop (m.hatedBy u) m h

theorem Ordered.clearReferences (h : m.Ordered) : m.clearReferences.Ordered := by
  have hnone : ∀ p, m.clearReferences.refs p = none := by
    intro p
    rw [ThreatManager.clearReferences]
    dsimp only
    split
    · rfl
    · rename_i hp
      cases hr : m.refs p with
      | none => rfl
      | some r => exact absurd (h.mem_lists hr) hp
  have hempty : ∀ p r, m.clearReferences.refs p ≠ some r := by
    intro p r hr
    rw [hnone] at hr
    cases hr
  refine ⟨⟨fun p r hr => absurd hr (hempty p r), fun p q r s hr => absurd hr (hempty p r),
    fun p r hr => absurd hr (hempty p r)⟩, nodup_nil, nodup_nil,
    fun p => ⟨fun hp => absurd hp not_mem_nil, fun ⟨r, hr, _⟩ => absurd hr (hempty p r)⟩,
    fun p => ⟨fun hp => absurd hp not_mem_nil, fun ⟨r, hr, _⟩ => absurd hr (hempty p r)⟩,
    fun p hp => by cases hp⟩

/-! ## The scan keeps to the list -/

/-- Sorting does not change what is in the list. -/
theorem update_perm (m : ThreatManager F) : (m.update o).threatList.Perm m.threatList := by
  rw [update]
  split
  · exact perm_insertionSort _ _
  · exact List.Perm.refl _

theorem Ordered.update (h : m.Ordered) : (m.update o).Ordered := by
  have hperm := update_perm (o := o) m
  exact ⟨⟨h.heap.fresh, h.heap.eq_of_guid, h.heap.target⟩, hperm.nodup_iff.2 h.threatList_nodup,
    h.offlineList_nodup, fun p => hperm.mem_iff.trans (h.mem_threatList p), h.mem_offlineList,
    fun p hp => hperm.mem_iff.2 (h.victim p hp)⟩

/-- What a scan of a part of the list may give, where the victim was `cv` : a reference of the part
or the victim, and no failure. -/
def ScanFits (l : List ℕ) (cv : Option ℕ) : Scan → Prop
  | .found p => p ∈ l ∨ cv = some p
  | .notFound => True
  | .again cv' => cv' = none ∨ cv' = cv
  | .assertionFailed => False

theorem ScanFits.cons {l : List ℕ} {cv cv1 : Option ℕ} {result : Scan}
    (hcv : cv1 = none ∨ cv1 = cv) (h : ScanFits l cv1 result) : ScanFits (p :: l) cv result := by
  cases result with
  | found q =>
    refine h.elim (fun hq => .inl (mem_cons_of_mem p hq)) fun hq => ?_
    rcases hcv with hcv | hcv
    · rw [hcv] at hq
      cases hq
    · exact .inr (hcv ▸ hq)
  | notFound => trivial
  | again cv' =>
    refine h.elim .inl fun hq => ?_
    rw [hq]
    exact hcv
  | assertionFailed => exact h

theorem scan_fits {look : ℕ → VictimView} {noPriority : Bool} :
    ∀ {l : List ℕ} {cv : Option ℕ}, (∀ p ∈ l, ∃ r u, m.refs p = some r ∧ r.target = some u) →
      (∀ v, cv = some v → ∃ r, m.refs v = some r) →
      ScanFits l cv (m.scan o look noPriority cv l)
  | [], _, _, _ => trivial
  | p :: rest, cv, hl, hcv => by
    obtain ⟨r, u, hr, hu⟩ := hl p mem_cons_self
    have hrest : ∀ q ∈ rest, ∃ r u, m.refs q = some r ∧ r.target = some u :=
      fun q hq => hl q (mem_cons_of_mem p hq)
    have hgo : ScanFits (p :: rest) cv (m.scan o look noPriority cv rest) :=
      ScanFits.cons (.inr rfl) (scan_fits hrest hcv)
    rw [scan, hr]
    dsimp only
    rw [hu]
    dsimp only
    split_ifs with hsecond hlast hvictim hattack
    · exact .inr rfl
    · exact ScanFits.cons (.inl rfl) (scan_fits hrest fun v hv => by cases hv)
    · exact hgo
    · cases cv with
      | none => exact .inl mem_cons_self
      | some v =>
        obtain ⟨victim, hv⟩ := hcv v rfl
        dsimp only
        rw [hv]
        dsimp only
        split_ifs
        · exact .inr rfl
        · exact .inl mem_cons_self
        · exact .inl mem_cons_self
        · exact hgo
    · exact hgo

/-- The next victim is a reference of the list, and the assertion holds. -/
theorem Ordered.selectNextVictim (h : m.Ordered) (look : ℕ → VictimView) :
    ∃ victim, m.selectNextVictim o look = some victim ∧ ∀ p, victim = some p → p ∈ m.threatList := by
  have hlist : ∀ p ∈ m.threatList, ∃ r u, m.refs p = some r ∧ r.target = some u := by
    intro p hp
    obtain ⟨r, hr, -⟩ := (h.mem_threatList p).1 hp
    exact ⟨r, r.unitGuid, hr, h.heap.target p r hr⟩
  have hvictim : ∀ v, m.currentVictim = some v → ∃ r, m.refs v = some r := by
    intro v hv
    obtain ⟨r, hr, -⟩ := (h.mem_threatList v).1 (h.victim v hv)
    exact ⟨r, hr⟩
  have hfirst : ScanFits m.threatList m.currentVictim
      (m.scan o look false m.currentVictim m.threatList) := scan_fits hlist hvictim
  rw [ThreatManager.selectNextVictim]
  cases hscan : m.scan o look false m.currentVictim m.threatList with
  | found p =>
    rw [hscan] at hfirst
    refine ⟨some p, rfl, ?_⟩
    rintro q ⟨rfl⟩
    exact hfirst.elim id (h.victim p)
  | notFound => exact ⟨none, rfl, fun p hp => by cases hp⟩
  | assertionFailed =>
    rw [hscan] at hfirst
    exact hfirst.elim
  | again cv =>
    rw [hscan] at hfirst
    have hmem : ∀ v, cv = some v → v ∈ m.threatList := by
      rintro v rfl
      rcases hfirst with hcv | hcv
      · cases hcv
      · exact h.victim v hcv.symm
    have hsecond : ScanFits m.threatList cv (m.scan o look true cv m.threatList) :=
      scan_fits hlist fun v hv => by
        obtain ⟨r, hr, -⟩ := (h.mem_threatList v).1 (hmem v hv)
        exact ⟨r, hr⟩
    dsimp only
    cases hscan' : m.scan o look true cv m.threatList with
    | found p =>
      rw [hscan'] at hsecond
      refine ⟨some p, rfl, ?_⟩
      rintro q ⟨rfl⟩
      exact hsecond.elim id (hmem p)
    | notFound | again cv' => exact ⟨none, rfl, fun p hp => by cases hp⟩
    | assertionFailed =>
      rw [hscan'] at hsecond
      exact hsecond.elim

theorem Ordered.getHostilTarget (h : m.Ordered) (look : ℕ → VictimView) :
    ∃ target m', m.getHostilTarget o look = some (target, m') ∧ m'.Ordered := by
  obtain ⟨victim, hselect, hmem⟩ := h.update.selectNextVictim (o := o) look
  rw [ThreatManager.getHostilTarget, hselect]
  exact ⟨_, _, rfl, h.update.setVictim hmem⟩

/-! ## Runs -/

theorem Ordered.serve (h : m.Ordered) (r : Request F) : (serve o m r).Ordered := by
  cases r with
  | addThreat w victim threat => exact h.addThreat victim threat
  | changeThreat w p threat => exact h.changeThreat p threat
  | addTempThreat w p threat => exact h.addTempThreat p threat
  | resetTempThreat w p => exact h.resetTempThreat p
  | modifyThreatPercent w victim percent => exact h.modifyThreatPercent victim percent
  | resetAllAggro w => exact h.resetAllAggro
  | updateOnlineStatus w p => exact h.updateOnlineStatus p
  | setOnlineOfflineState p isOnline => exact h.setOnlineOfflineState p isOnline
  | removeReference p => exact h.removeReference p
  | targetDestroyed u => exact h.targetDestroyed u
  | tauntApply w taunter => exact h.tauntApply taunter
  | tauntFadeOut w taunter => exact h.tauntFadeOut taunter
  | forceVictim taunter => exact h.forceVictim taunter
  | getHostilTarget look =>
    obtain ⟨target, m', heq, hordered⟩ := h.getHostilTarget (o := o) look
    rw [ThreatManager.serve, heq]
    exact hordered
  | clearReferences => exact h.clearReferences

/-- The structure of the threat list : each reference is in one of the lists, once, by its status ;
units have one reference each ; online references have a target, so that the choice of the next
victim does not fail ; and the victim is online. -/
structure ThreatLaws (o : ThreatOps F) (m : ThreatManager F) : Prop where
  count : ∀ p r, m.refs p = some r → m.threatList.count p = (if r.online then 1 else 0) ∧
    m.offlineList.count p = if r.online then 0 else 1
  exists_ref : ∀ p, p ∈ m.threatList ∨ p ∈ m.offlineList → ∃ r, m.refs p = some r
  eq_of_guid : ∀ p q r s, m.refs p = some r → m.refs q = some s → r.unitGuid = s.unitGuid → p = q
  target : ∀ p r, m.refs p = some r → r.online = true → r.target = some r.unitGuid
  getHostilTarget : ∀ look, m.getHostilTarget o look ≠ none
  victim : ∀ p, m.currentVictim = some p → p ∈ m.threatList

theorem Ordered.laws (h : m.Ordered) : m.ThreatLaws o where
  count p r hr := by
    have honline := h.mem_threatList p
    have hoffline := h.mem_offlineList p
    simp only [hr, some.injEq, exists_eq_left'] at honline hoffline
    rw [h.threatList_nodup.count, h.offlineList_nodup.count]
    simp only [honline, hoffline]
    cases r.online <;> simp
  exists_ref p hp := by
    rcases hp with hp | hp
    · exact h.exists_ref hp
    · obtain ⟨r, hr, -⟩ := (h.mem_offlineList p).1 hp
      exact ⟨r, hr⟩
  eq_of_guid := h.heap.eq_of_guid
  target p r hr _ := h.heap.target p r hr
  getHostilTarget look hfail := by
    obtain ⟨target, m', heq, -⟩ := h.getHostilTarget (o := o) look
    rw [heq] at hfail
    cases hfail
  victim := h.victim

/-- The threat list is in order in every state of every run. -/
theorem ordered_run (o : ThreatOps F) (rs : List (Request F)) : (run (serve o) {} rs).Ordered :=
  run_of_invariant (fun _ r h => h.serve r) rs ordered_empty

/-- The laws hold in every state of every run from the empty threat list. -/
theorem threat_run (o : ThreatOps F) (rs : List (Request F)) : (run (serve o) {} rs).ThreatLaws o :=
  (ordered_run o rs).laws

end ThreatManager

end MistyWorld
