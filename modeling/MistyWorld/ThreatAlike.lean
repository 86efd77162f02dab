import MistyWorld.ThreatAccounts

/-!
# The threat of a unit without owner

Which unit is in which list is decided by the calls and the worlds, and by threat only where it is
added to a unit with an owner, who is hated as well when it is not negative. So two threat managers
that differ in the threat of a unit (`Alike`) stay so, as long as it has no owner when threat is set.
A taunt of a unit without owner leads to such a manager (`alike_tauntApply`).
-/

open Option

namespace MistyWorld

namespace ThreatManager

variable {w : ThreatWorld} {m a b : ThreatManager ℚ} {p u : ℕ} {r s : HostileReference ℚ}

/-- A reference without the threat of the unit, and without what no list depends on. -/
def blank (u : ℕ) (r : HostileReference ℚ) : HostileReference ℚ :=
  { r with
    threat := if r.unitGuid = u then 0 else r.threat
    tempThreatModifier := 0
    accessible := false }

def shape (u : ℕ) (m : ThreatManager ℚ) : ThreatManager ℚ :=
  { m with refs := fun p => (m.refs p).map (blank u), dirty := false, currentVictim := none }

/-- Two managers that differ in the threat of the unit. -/
def Alike (u : ℕ) (a b : ThreatManager ℚ) : Prop :=
  shape u a = shape u b

section

variable (h : Alike u a b)
include h

theorem Alike.threatList : a.threatList = b.threatList :=
  congrArg (·.threatList) h

theorem Alike.nextRef : a.nextRef = b.nextRef :=
  congrArg (·.nextRef) h

theorem Alike.ref (p : ℕ) : (a.refs p).map (blank u) = (b.refs p).map (blank u) :=
  congrArg (·.refs p) h

theorem Alike.any {f : HostileReference ℚ → Bool} (hf : ∀ r, f (blank u r) = f r) (p : ℕ) :
    (a.refs p).any f = (b.refs p).any f := by
  have href := congrArg (Option.any f) (h.ref p)
  rwa [any_map, any_map, funext hf] at href

theorem Alike.ref_cases (p : ℕ) : (a.refs p = none ∧ b.refs p = none) ∨
    ∃ r s, a.refs p = some r ∧ b.refs p = some s ∧ blank u r = blank u s := by
  have href := h.ref p
  cases ha : a.refs p <;> cases hb : b.refs p <;> simp_all

theorem Alike.getReferenceByTarget (list : List ℕ) (v : ℕ) :
    a.getReferenceByTarget list v = b.getReferenceByTarget list v :=
  congrArg (List.find? · list) (funext fun p => h.any (fun _ => rfl) p)

theorem Alike.setRef (hr : blank u r = blank u s) : Alike u (a.setRef p r) (b.setRef p s) := by
  have href : ∀ q, ((a.setRef p r).refs q).map (blank u) = ((b.setRef p s).refs q).map (blank u) :=
    fun q => by
      by_cases hq : q = p
      · rw [hq, setRef_self, setRef_self, map_some, map_some, hr]
      · rw [setRef_of_ne a hq, setRef_of_ne b hq, h.ref]
  exact congrArg₂ (fun n refs => { n with refs := refs }) h (funext href)

theorem Alike.relink (w : ThreatWorld) (p : ℕ) : Alike u (a.relink w p) (b.relink w p) := by
  obtain ⟨ha, hb⟩ | ⟨r, s, ha, hb, hrs⟩ := h.ref_cases p
  · rwa [ThreatManager.relink, ha, ThreatManager.relink, hb]
  · have hguid : r.unitGuid = s.unitGuid := congrArg (·.unitGuid) hrs
    have htarget : r.target = s.target := congrArg (·.target) hrs
    rw [ThreatManager.relink, ha, ThreatManager.relink, hb]
    dsimp only
    rw [htarget, hguid]
    split
    · exact h.setRef (by simp_all [blank])
    · exact h

theorem Alike.setOnlineOfflineState (p : ℕ) (isOnline : Bool) :
    Alike u (a.setOnlineOfflineState exact p isOnline)
      (b.setOnlineOfflineState exact p isOnline) := by
  obtain ⟨ha, hb⟩ | ⟨r, s, ha, hb, hrs⟩ := h.ref_cases p
  · rwa [ThreatManager.setOnlineOfflineState, ha, ThreatManager.setOnlineOfflineState, hb]
  · have honline : r.online = s.online := congrArg (·.online) hrs
    have hset : ∀ online accessible accessible',
        blank u { r with online := online, accessible := accessible } =
          blank u { s with online := online, accessible := accessible' } := fun online _ _ =>
      congrArg (fun t => { t with online := online }) hrs
    rw [setOnlineOfflineState_eq ha, setOnlineOfflineState_eq hb, honline]
    split_ifs
    · exact h
    · exact congrArg (fun n : ThreatManager ℚ => { n with
        threatList := n.threatList ++ [p], offlineList := n.offlineList.filter (· ≠ p) })
          (h.setRef (hset true r.accessible s.accessible))
    · exact congrArg (fun n : ThreatManager ℚ => { n with
        threatList := n.threatList.filter (· ≠ p), offlineList := n.offlineList ++ [p] })
          (h.setRef (hset false false false))

end

/-- Writing what is blank changes nothing. -/
theorem alike_setRef (hr : m.refs p = some r) (hs : blank u s = blank u r) :
    Alike u (m.setRef p s) m := by
  have hset : Alike u (m.setRef p s) (m.setRef p r) := Alike.setRef rfl hs
  have hsame : m.setRef p r = m := by rw [setRef, Function.update_eq_self_iff.2 hr.symm]
  rwa [hsame] at hset

theorem alike_setAccessibleState (m : ThreatManager ℚ) (p : ℕ) (isAccessible : Bool) :
    Alike u (m.setAccessibleState exact p isAccessible) m := by
  cases hr : m.refs p with
  | none => rw [setAccessibleState, hr, Alike]
  | some r => exact setAccessibleState_eq (o := exact) hr isAccessible ▸ alike_setRef hr rfl

theorem Alike.updateOnlineStatus (h : Alike u a b) (w : ThreatWorld) (p : ℕ) :
    Alike u (a.updateOnlineStatus exact w p) (b.updateOnlineStatus exact w p) := by
  have hlink := h.relink w p
  rw [ThreatManager.updateOnlineStatus, ThreatManager.updateOnlineStatus]
  obtain ⟨ha, hb⟩ | ⟨r, s, ha, hb, hrs⟩ := hlink.ref_cases p
  · rwa [ha, hb]
  · have htarget : r.target = s.target := congrArg (·.target) hrs
    have hstatus : onlineStatus w r = onlineStatus w s := by rw [onlineStatus, htarget, onlineStatus]
    rw [ha, hb]
    dsimp only
    rw [hstatus]
    exact Alike.setOnlineOfflineState ((alike_setAccessibleState _ p _).trans
      (hlink.trans (alike_setAccessibleState _ p _).symm)) p _

theorem alike_threatChange (m : ThreatManager ℚ) (p : ℕ) (value : ℚ) :
    Alike u (m.processThreatEvent exact p (.threatChange value)) m := by
  rw [processThreatEvent]
  split <;> rfl

/-! ## Added threat -/

/-- What is done for the owner does not look at the threat of the unit. -/
def Blind (u : ℕ) (f : ThreatManager ℚ → ThreatManager ℚ) : Prop :=
  ∀ a b, Alike u a b → Alike u (f a) (f b)

variable {toOwner : ThreatManager ℚ → ThreatManager ℚ}

theorem Alike.refAddThreat (h : Alike u a b) (hf : Blind u toOwner) (w : ThreatWorld) (p : ℕ)
    (modThreat : ℚ) : Alike u (a.refAddThreat exact w toOwner p modThreat)
      (b.refAddThreat exact w toOwner p modThreat) := by
  have howner : ∀ {a b}, Alike u a b →
      Alike u (if (a.refs p).any (·.target.isSome) ∧ exact.le exact.zero modThreat then toOwner a
        else a) (if (b.refs p).any (·.target.isSome) ∧ exact.le exact.zero modThreat then toOwner b
        else b) := fun {a b} h => by
    rw [h.any (f := (·.target.isSome)) (fun _ => rfl)]
    split
    · exact hf _ _ h
    · exact h
  have hevent : ∀ m : ThreatManager ℚ, Alike u (if exact.isZero modThreat then m
      else m.processThreatEvent exact p (.threatChange modThreat)) m := fun m => by
    split
    · rfl
    · exact alike_threatChange m p modThreat
  obtain ⟨ha, hb⟩ | ⟨r, s, ha, hb, hrs⟩ := h.ref_cases p
  · rwa [ThreatManager.refAddThreat, ha, ThreatManager.refAddThreat, hb]
  · have honline : r.online = s.online := congrArg (·.online) hrs
    have hset : Alike u (a.setRef p { r with threat := exact.add r.threat modThreat })
        (b.setRef p { s with threat := exact.add s.threat modThreat }) :=
      h.setRef (by grind [blank])
    rw [ThreatManager.refAddThreat, ha, ThreatManager.refAddThreat, hb]
    dsimp only
    refine howner ((hevent _).trans (Eq.trans ?_ (hevent _).symm))
    rw [if_congr (Bool.coe_iff_coe.2 honline) rfl rfl]
    split
    · exact hset
    · exact hset.updateOnlineStatus w p

theorem Alike.addThreatTo (h : Alike u a b) (hf : Blind u toOwner) (w : ThreatWorld) (v : ℕ)
    (threat : ℚ) :
    Alike u (a.addThreatTo exact w toOwner v threat) (b.addThreatTo exact w toOwner v threat) := by
  have hoffline : a.offlineList = b.offlineList := congrArg (·.offlineList) h
  have hnew : Alike u (a.newReference exact v) (b.newReference exact v) := by
    rw [newReference, newReference, h.nextRef]
    exact congrArg (fun n : ThreatManager ℚ => { n with
      nextRef := b.nextRef + 1, threatList := n.threatList ++ [b.nextRef] }) (h.setRef rfl)
  have hadd := hnew.refAddThreat hf w b.nextRef threat
  rw [ThreatManager.addThreatTo, ThreatManager.addThreatTo, h.threatList, hoffline, h.nextRef,
    h.getReferenceByTarget, h.getReferenceByTarget]
  split
  · exact h.refAddThreat hf w _ threat
  · split
    · exact h.refAddThreat hf w _ threat
    · dsimp only
      split
      · exact hadd.setOnlineOfflineState _ false
      · exact hadd

theorem blind_addOwners (u : ℕ) (w : ThreatWorld) : ∀ owners, Blind u (addOwners exact w owners)
  | [], _, _, h => h
  | owner :: owners, a, b, h => by
    rw [addOwners, addOwners]
    split
    · exact h.addThreatTo (blind_addOwners u w owners) w owner exact.zero
    · exact h

/-- Threat on a unit changes nothing else, when it is online and has no owner. -/
theorem alike_changeThreat (hr : m.refs p = some r) (honline : r.online = true)
    (howners : w.owners r.unitGuid = []) (modThreat : ℚ) :
    Alike r.unitGuid (m.changeThreat exact w p modThreat) m := by
  rw [changeThreat, hr]
  dsimp only
  rw [howners]
  refine refAddThreat_rule (P := (Alike r.unitGuid · m)) hr modThreat ?_
    (fun m' h' => (alike_threatChange m' p modThreat).trans h') (fun _ h' => h') fun _ h' => h'
  rw [if_pos honline]
  exact alike_setRef hr (by simp [blank])

/-! ## Resets and taunts -/

theorem Alike.setThreat (h : Alike u a b) (ha : a.Ordered) (hb : b.Ordered)
    (hp : p ∈ b.threatList) (howners : w.owners u = []) (threat : ℚ) :
    Alike u (a.setThreat exact w p threat) (b.setThreat exact w p threat) := by
  obtain ⟨r, hr, hronline⟩ := (ha.mem_threatList p).1 (h.threatList ▸ hp)
  obtain ⟨s, hs, hsonline⟩ := (hb.mem_threatList p).1 hp
  have hrs : blank u r = blank u s := by
    have href := h.ref p
    rwa [hr, hs, map_some, map_some, some.injEq] at href
  have hguid : r.unitGuid = s.unitGuid := congrArg (·.unitGuid) hrs
  rw [ThreatManager.setThreat, hr, ThreatManager.setThreat, hs]
  by_cases hu : s.unitGuid = u
  · obtain rfl := hguid.trans hu
    rw [← hguid] at hu
    have h' := alike_changeThreat hs hsonline (w := w) (hguid ▸ howners) (exact.sub threat s.threat)
    exact (alike_changeThreat hr hronline howners _).trans (h.trans (hguid ▸ h').symm)
  · have hthreat : r.threat = s.threat := by
      have := congrArg (·.threat) hrs
      simpa [blank, hguid, hu] using this
    dsimp only
    rw [hthreat, changeThreat, hr, changeThreat, hs]
    dsimp only
    rw [hguid]
    exact h.refAddThreat (blind_addOwners u w _) w p _

theorem Alike.resetLoop (howners : w.owners u = []) : ∀ (n i : ℕ) {a b : ThreatManager ℚ},
    a.Ordered → b.Ordered → Alike u a b →
      Alike u (resetLoop exact w n i a) (resetLoop exact w n i b)
  | 0, _, _, _, _, _, h => h
  | n + 1, i, a, b, ha, hb, h => by
    rw [ThreatManager.resetLoop, ThreatManager.resetLoop, h.threatList]
    cases hp : b.threatList[i]? with
    | none => exact h
    | some p =>
      exact Alike.resetLoop howners n (i + 1) (ha.setThreat p _) (hb.setThreat p _)
        (h.setThreat ha hb (List.mem_of_getElem? hp) howners _)

theorem Alike.resetAllAggro (h : Alike u a b) (ha : a.Ordered) (hb : b.Ordered)
    (howners : w.owners u = []) : Alike u (a.resetAllAggro exact w) (b.resetAllAggro exact w) := by
  have hweight : a.weightOf w = b.weightOf w := funext fun p => by
    obtain ⟨ha, hb⟩ | ⟨r, s, ha, hb, hrs⟩ := h.ref_cases p
    · rw [weightOf, ha, weightOf, hb]
    · exact weightOf_eq ha ▸ weightOf_eq hb ▸ congrArg (fun t => 2 ^ (w.owners t.unitGuid).length) hrs
  rw [ThreatManager.resetAllAggro, ThreatManager.resetAllAggro, resetFuel, resetFuel, weight, weight,
    h.threatList, hweight]
  split
  · exact h
  · exact Alike.resetLoop howners _ 0 ha hb h

/-- A taunt changes the threat of the taunter only. -/
theorem alike_tauntApply (h : m.Ordered) (howners : w.owners u = []) :
    Alike u (m.tauntApply exact w u) m := by
  rw [tauntApply]
  cases hfind : m.getReferenceByTarget m.threatList u with
  | none => rfl
  | some p =>
    obtain ⟨hp, r, hr, rfl⟩ := getReferenceByTarget_eq_some hfind
    obtain ⟨r', hr', honline⟩ := (h.mem_threatList p).1 hp
    obtain rfl := some.inj (hr.symm.trans hr')
    dsimp only
    rw [hr]
    cases m.currentVictim.bind m.refs with
    | none => rfl
    | some v =>
      dsimp only
      split
      · have hset : Alike r.unitGuid (m.setRef p
          { r with tempThreatModifier := exact.sub v.threat r.threat }) m := alike_setRef hr rfl
        rw [addTempThreat, hr]
        dsimp only
        split
        · exact hset
        · refine Eq.trans (alike_changeThreat (setRef_self m p _) ?_ ?_ _) hset
          · exact honline
          · exact howners
      · rfl

end ThreatManager

end MistyWorld
