import MistyWorld.ThreatList
import Mathlib.Algebra.Order.Field.Rat
import Mathlib.Tactic.Linarith

/-!
# The choice of the victim

`getHostilTarget` keeps the victim unless another reference of the online list has more threat :
above 1.1 times the threat of the victim in melee range, above 1.3 times otherwise. References whose
unit is immune or crowd-controlled are second choices, taken when there is no other.

The list is scanned once. A reference is passed by when its unit cannot be attacked, or when its
threat is between the two bounds ; the scan ends at the first one that is not. That is the right one
where the list goes by falling threat (`keeps_of_dirty`), but the dirty flag is not set by every
change that puts the list out of order. And the scan only turns to the second choices where the last
reference of the list is one. `victim_run` says exactly where the choice is right, by the threat of
the references and their order, in every reachable state, for threat in exact numbers.
-/

open Option List Machine

namespace MistyWorld

namespace ThreatManager

/-- Threat in exact numbers. -/
def exact : ThreatOps ℚ where
  zero := 0
  add := (· + ·)
  sub := (· - ·)
  neg := (- ·)
  isZero := fun x => x = 0
  lt := fun x y => x < y
  le := fun x y => x ≤ y
  addPct := fun x percent => x + x * percent / 100
  times11 := fun x => 11 / 10 * x
  times13 := fun x => 13 / 10 * x

variable {m : ThreatManager ℚ} {look : ℕ → VictimView} {p q v : ℕ}

/-! ## The references of the list -/

/-- The unit of a reference, as the creature sees it. -/
def viewOf (m : ThreatManager ℚ) (look : ℕ → VictimView) (p : ℕ) : VictimView :=
  match (m.refs p).bind HostileReference.target with
  | none => {}
  | some u => look u

def canAttack (m : ThreatManager ℚ) (look : ℕ → VictimView) (p : ℕ) : Bool :=
  (m.viewOf look p).canAttack

/-- The unit is no second choice. -/
def preferred (m : ThreatManager ℚ) (look : ℕ → VictimView) (p : ℕ) : Bool :=
  !(m.viewOf look p).secondChoice

def threatOf (m : ThreatManager ℚ) (p : ℕ) : ℚ :=
  m.getThreat exact p

/-- The rule of 110% and 130% : `p` has threat enough to replace the victim `v`. -/
def Beats (m : ThreatManager ℚ) (look : ℕ → VictimView) (v p : ℕ) : Prop :=
  13 / 10 * m.threatOf v < m.threatOf p ∨
    (11 / 10 * m.threatOf v < m.threatOf p ∧ (m.viewOf look p).inMeleeRange = true)

/-- The scan goes on after `p` : it has more threat than the victim, but not enough. -/
def PassedBy (m : ThreatManager ℚ) (look : ℕ → VictimView) (cv : Option ℕ) (p : ℕ) : Prop :=
  ∃ v, cv = some v ∧ v ≠ p ∧ 11 / 10 * m.threatOf v < m.threatOf p ∧ ¬m.Beats look v p

/-- The victim that is left when the references `l` have been scanned : a second choice is dropped
on the way. -/
def victimAfter (m : ThreatManager ℚ) (look : ℕ → VictimView) : Option ℕ → List ℕ → Option ℕ
  | cv, [] => cv
  | cv, p :: l =>
    m.victimAfter look (if ¬m.preferred look p ∧ cv = some p then none else cv) l

/-- The references of the list have units. -/
def HasTargets (m : ThreatManager ℚ) (l : List ℕ) : Prop :=
  ∀ p ∈ l, ∃ r u, m.refs p = some r ∧ r.target = some u

/-! ## One step of the scan -/

section Step

variable {noPriority : Bool} {cv : Option ℕ} {rest : List ℕ} {r : HostileReference ℚ} {u : ℕ}

section

variable (hr : m.refs p = some r)
include hr

theorem viewOf_eq (hu : r.target = some u) : m.viewOf look p = look u := by
  rw [viewOf, hr, bind_some, hu]

theorem threatOf_eq : m.threatOf p = r.threat := by
  rw [threatOf, getThreat, hr]

/-- A second choice is passed by, and is the victim no longer. -/
theorem scan_secondChoice (hu : r.target = some u) (hsecond : m.preferred look p = false) :
    m.scan exact look false cv (p :: rest) =
      if rest = [] then .again cv
      else m.scan exact look false (if cv = some p then none else cv) rest := by
  rw [preferred, viewOf_eq hr hu, Bool.not_eq_false'] at hsecond
  rw [scan, hr]
  dsimp only
  rw [hu]
  dsimp only
  rw [if_pos (by simp [hsecond])]

/-- What the scan does at a reference that is considered. -/
theorem scan_considered (hu : r.target = some u)
    (hgo : noPriority = true ∨ m.preferred look p = true) :
    m.scan exact look noPriority cv (p :: rest) =
      if (look u).canAttack then
        match cv with
        | none => .found p
        | some v =>
          match m.refs v with
          | none => .assertionFailed
          | some victim =>
            if v = p ∨ exact.le r.threat (exact.times11 victim.threat) then
              if v ≠ p ∧ victim.target.any (fun u => (look u).canAttack) then .found v
              else .found p
            else if exact.lt (exact.times13 victim.threat) r.threat ∨
                (exact.lt (exact.times11 victim.threat) r.threat ∧ (look u).inMeleeRange) then
              .found p
            else m.scan exact look noPriority cv rest
      else m.scan exact look noPriority cv rest := by
  have hpref : (!noPriority && (look u).secondChoice) = false := by
    rcases hgo with rfl | hpref
    · rfl
    · rw [preferred, viewOf_eq hr hu, Bool.not_eq_true'] at hpref
      rw [hpref, Bool.and_false]
  rw [scan, hr]
  dsimp only
  rw [hu]
  dsimp only
  rw [hpref, if_neg Bool.false_ne_true]
  cases cv with
  | none => rfl
  | some v =>
    dsimp only
    cases m.refs v with
    | none => rfl
    | some victim => rfl

end

/-- The scan ends at a reference that is considered, can be attacked and is not passed by : with
that reference if there is no victim or its threat is above that of the victim, or with the
victim. -/
theorem scan_found (rest : List ℕ) (hr : m.refs p = some r) (hu : r.target = some u)
    (hcv : ∀ v, cv = some v → m.HasTargets [v])
    (hgo : noPriority = true ∨ m.preferred look p = true) (hattack : m.canAttack look p = true)
    (hpass : ¬m.PassedBy look cv p) :
    ∃ q, m.scan exact look noPriority cv (p :: rest) = .found q ∧ m.canAttack look q = true ∧
      ∀ v, cv = some v → m.canAttack look v = true →
        q = if v ≠ p ∧ 11 / 10 * m.threatOf v < m.threatOf p then p else v := by
  have hlook : (look u).canAttack = true := by rwa [canAttack, viewOf_eq hr hu] at hattack
  rw [scan_considered hr hu hgo, if_pos hlook]
  cases cv with
  | none => exact ⟨p, rfl, hattack, fun v hv => by cases hv⟩
  | some v =>
    obtain ⟨victim, t, hv, ht⟩ := hcv v rfl v (mem_singleton_self v)
    have hviewv : m.canAttack look v = (look t).canAttack := by rw [canAttack, viewOf_eq hv ht]
    dsimp only
    rw [hv]
    simp only [exact, decide_eq_true_eq, ht, any_some]
    rw [← threatOf_eq hr, ← threatOf_eq hv, ← @viewOf_eq _ look _ _ _ hr hu, ← hviewv]
    split_ifs with hstop hkeep hbeats
    · refine ⟨v, rfl, hkeep.2, ?_⟩
      rintro v' ⟨rfl⟩ -
      rw [if_neg]
      rintro ⟨-, hlt⟩
      rcases hstop with hvp | hle
      · exact hkeep.1 hvp
      · exact absurd hlt (not_lt.2 hle)
    · refine ⟨p, rfl, hattack, ?_⟩
      rintro v' ⟨rfl⟩ hattackv
      have hvp : v = p := by
        by_contra hne
        exact hkeep ⟨hne, hattackv⟩
      rw [if_neg fun h => h.1 hvp, hvp]
    · refine ⟨p, rfl, hattack, ?_⟩
      rintro v' ⟨rfl⟩ -
      rw [not_or, not_le] at hstop
      rw [if_pos ⟨hstop.1, hstop.2⟩]
    · rw [not_or, not_le] at hstop
      exact absurd ⟨v, rfl, hstop.1, hstop.2, hbeats⟩ hpass

/-- The scan goes on after a reference that cannot be attacked or is passed by. -/
theorem scan_passed (hr : m.refs p = some r) (hu : r.target = some u)
    (hcv : ∀ v, cv = some v → m.HasTargets [v])
    (hgo : noPriority = true ∨ m.preferred look p = true)
    (hpass : m.canAttack look p = true → m.PassedBy look cv p) :
    m.scan exact look noPriority cv (p :: rest) = m.scan exact look noPriority cv rest := by
  rw [scan_considered hr hu hgo]
  split
  · rename_i hlook
    obtain ⟨v, rfl, hne, hmore, hbeats⟩ := hpass (by rwa [canAttack, viewOf_eq hr hu])
    obtain ⟨victim, t, hv, ht⟩ := hcv v rfl v (mem_singleton_self v)
    dsimp only
    rw [hv]
    rw [threatOf_eq hr, threatOf_eq hv] at hmore
    rw [Beats, threatOf_eq hr, threatOf_eq hv, viewOf_eq hr hu] at hbeats
    simp only [exact, decide_eq_true_eq]
    rw [if_neg, if_neg hbeats]
    rintro (hvp | hle)
    · exact hne hvp
    · exact absurd hmore (not_lt.2 hle)
  · rfl

end Step

/-! ## The two scans -/

variable {l : List ℕ} {cv : Option ℕ}

theorem HasTargets.tail (h : m.HasTargets (p :: l)) : m.HasTargets l :=
  fun q hq => h q (mem_cons_of_mem p hq)

variable (look) in
/-- The scan for second choices : it finds the first reference that can be attacked and is not passed
by, or none. -/
theorem scan_all : ∀ {l : List ℕ} {cv : Option ℕ}, m.HasTargets l →
    (∀ v, cv = some v → m.HasTargets [v]) →
    ((∃ p ∈ l, m.canAttack look p = true ∧ ¬m.PassedBy look cv p) →
      ∃ q, m.scan exact look true cv l = .found q ∧ m.canAttack look q = true) ∧
    ((∀ p ∈ l, m.canAttack look p = true → m.PassedBy look cv p) →
      m.scan exact look true cv l = .notFound)
  | [], _, _, _ => by
    refine ⟨?_, fun _ => by rw [scan]⟩
    rintro ⟨p, hp, -⟩
    cases hp
  | p :: l, cv, hl, hcv => by
    obtain ⟨r, u, hr, hu⟩ := hl p mem_cons_self
    obtain ⟨hfound, hnone⟩ := scan_all hl.tail hcv
    by_cases hpass : m.canAttack look p = true → m.PassedBy look cv p
    · rw [scan_passed hr hu hcv (.inl rfl) hpass]
      refine ⟨?_, fun hall => hnone fun q hq => hall q (mem_cons_of_mem p hq)⟩
      rintro ⟨q, hq, hattack, hnot⟩
      rcases mem_cons.1 hq with rfl | hq
      · exact absurd (hpass hattack) hnot
      · exact hfound ⟨q, hq, hattack, hnot⟩
    · obtain ⟨hattack, hnot⟩ := Classical.not_imp.1 hpass
      obtain ⟨q, hscan, hq, -⟩ := scan_found l hr hu hcv (.inl rfl) hattack hnot
      exact ⟨fun _ => ⟨q, hscan, hq⟩, fun hall => absurd (hall p mem_cons_self) hpass⟩

/-- A preferred reference of `l` that can be attacked and is not passed by, with the victim that is
left when the scan comes to it. -/
def FoundAmong (m : ThreatManager ℚ) (look : ℕ → VictimView) (cv : Option ℕ) (l : List ℕ) : Prop :=
  ∃ a p b, l = a ++ p :: b ∧ m.preferred look p = true ∧ m.canAttack look p = true ∧
    ¬m.PassedBy look (m.victimAfter look cv a) p

/-- The last reference of the list is a second choice. -/
def LastSecond (m : ThreatManager ℚ) (look : ℕ → VictimView) (l : List ℕ) : Prop :=
  ∃ z, l.getLast? = some z ∧ m.preferred look z = false

theorem lastSecond_cons (h : l ≠ []) : m.LastSecond look (p :: l) ↔ m.LastSecond look l := by
  rw [LastSecond, LastSecond, List.getLast?_cons_of_ne_nil h]

theorem foundAmong_cons : m.FoundAmong look cv (p :: l) ↔
    (m.preferred look p = true ∧ m.canAttack look p = true ∧ ¬m.PassedBy look cv p) ∨
      m.FoundAmong look (if ¬m.preferred look p ∧ cv = some p then none else cv) l := by
  constructor
  · rintro ⟨a, q, b, heq, hq⟩
    cases a with
    | nil =>
      obtain ⟨rfl, rfl⟩ := List.cons.inj heq
      exact .inl hq
    | cons x a =>
      obtain ⟨rfl, rfl⟩ := List.cons.inj heq
      exact .inr ⟨a, q, b, rfl, hq⟩
  · rintro (hp | ⟨a, q, b, rfl, hq⟩)
    · exact ⟨[], p, l, rfl, hp⟩
    · exact ⟨p :: a, q, b, rfl, hq⟩

variable (look) in
/-- The scan for preferred references. -/
theorem scan_preferred : ∀ {l : List ℕ} {cv : Option ℕ}, m.HasTargets l →
    (∀ v, cv = some v → m.HasTargets [v]) →
    (m.FoundAmong look cv l →
      ∃ q, m.scan exact look false cv l = .found q ∧ m.canAttack look q = true) ∧
    (¬m.FoundAmong look cv l → m.LastSecond look l →
      m.scan exact look false cv l = .again (m.victimAfter look cv l.dropLast)) ∧
    (¬m.FoundAmong look cv l → ¬m.LastSecond look l → m.scan exact look false cv l = .notFound)
  | [], cv, _, _ => by
    refine ⟨?_, ?_, fun _ _ => by rw [scan]⟩
    · rintro ⟨a, p, b, heq, -⟩
      simp at heq
    · rintro - ⟨z, hz, -⟩
      cases hz
  | p :: l, cv, hl, hcv => by
    obtain ⟨r, u, hr, hu⟩ := hl p mem_cons_self
    rw [foundAmong_cons]
    cases hpref : m.preferred look p with
    | false =>
      have hcv' : ∀ v, (if cv = some p then none else cv) = some v → m.HasTargets [v] := by
        intro v hv
        split_ifs at hv
        exact hcv v hv
      obtain ⟨hfound, hagain, hnone⟩ := scan_preferred hl.tail hcv'
      rw [scan_secondChoice hr hu hpref]
      simp only [Bool.false_eq_true, not_false_eq_true, true_and, false_and, false_or]
      by_cases hrest : l = []
      · subst hrest
        refine ⟨?_, fun _ _ => rfl, fun _ hlast => absurd ⟨p, rfl, hpref⟩ hlast⟩
        rintro ⟨a, q, b, heq, -⟩
        simp at heq
      · rw [if_neg hrest]
        rw [lastSecond_cons hrest, dropLast_cons_of_ne_nil hrest, victimAfter]
        simp only [hpref, Bool.false_eq_true, not_false_eq_true, true_and]
        exact ⟨hfound, hagain, hnone⟩
    | true =>
      obtain ⟨hfound, hagain, hnone⟩ := scan_preferred hl.tail hcv
      simp only [not_true_eq_false, false_and, if_false, true_and]
      by_cases hpass : m.canAttack look p = true → m.PassedBy look cv p
      · have hnot : ¬(m.canAttack look p = true ∧ ¬m.PassedBy look cv p) :=
          fun h => h.2 (hpass h.1)
        rw [scan_passed hr hu hcv (.inr hpref) hpass]
        simp only [hnot, false_or]
        by_cases hrest : l = []
        · subst hrest
          refine ⟨hfound, fun _ hlast => ?_, fun h _ => hnone h ?_⟩
          · obtain ⟨z, hz, hsecond⟩ := hlast
            have hzp : p = z := some.inj hz
            rw [← hzp, hpref] at hsecond
            cases hsecond
          · rintro ⟨z, hz, -⟩
            cases hz
        · rw [lastSecond_cons hrest, dropLast_cons_of_ne_nil hrest, victimAfter]
          simp only [hpref, not_true_eq_false, false_and, if_false]
          exact ⟨hfound, hagain, hnone⟩
      · obtain ⟨hattack, hnot⟩ := Classical.not_imp.1 hpass
        obtain ⟨q, hscan, hq, -⟩ := scan_found l hr hu hcv (.inr hpref) hattack hnot
        exact ⟨fun _ => ⟨q, hscan, hq⟩, fun h => absurd (.inl ⟨hattack, hnot⟩) h,
          fun h => absurd (.inl ⟨hattack, hnot⟩) h⟩

/-! ## The victim that is chosen -/

/-- The scans find a reference : a preferred one, or, where the last one is a second choice, any that
can be attacked, and that is not passed by. -/
def FindsVictim (m : ThreatManager ℚ) (look : ℕ → VictimView) : Prop :=
  m.FoundAmong look m.currentVictim m.threatList ∨
    (m.LastSecond look m.threatList ∧ ∃ p ∈ m.threatList, m.canAttack look p = true ∧
      ¬m.PassedBy look (m.victimAfter look m.currentVictim m.threatList.dropLast) p)

/-- The victim is left where it is no second choice that was scanned. -/
theorem victimAfter_eq_some_iff (m : ThreatManager ℚ) (look : ℕ → VictimView) :
    ∀ {l : List ℕ} {cv : Option ℕ} {v : ℕ}, m.victimAfter look cv l = some v ↔
      cv = some v ∧ (m.preferred look v = true ∨ v ∉ l)
  | [], cv, v => by simp [victimAfter]
  | p :: l, cv, v => by
    rw [victimAfter, victimAfter_eq_some_iff, mem_cons, not_or]
    by_cases hdrop : ¬m.preferred look p = true ∧ cv = some p
    · obtain ⟨hp, rfl⟩ := hdrop
      rw [if_pos ⟨hp, rfl⟩]
      refine iff_of_false (fun h => nomatch h.1) ?_
      rintro ⟨hv, hpref | hnot⟩
      · exact hp (some.inj hv ▸ hpref)
      · exact hnot.1 (some.inj hv).symm
    · rw [if_neg hdrop]
      refine and_congr_right fun hv => ?_
      by_cases hpref : m.preferred look v = true
      · simp only [hpref, true_or]
      · have hne : v ≠ p := by
          rintro rfl
          exact hdrop ⟨hpref, hv⟩
        simp only [hne, not_false_eq_true, true_and]

theorem Ordered.hasTargets (h : m.Ordered) : m.HasTargets m.threatList := by
  intro p hp
  obtain ⟨r, hr⟩ := h.exists_ref hp
  exact ⟨r, r.unitGuid, hr, h.heap.target p r hr⟩

theorem Ordered.victim_hasTargets (h : m.Ordered) (hv : m.currentVictim = some v) :
    m.HasTargets [v] := by
  intro p hp
  rw [mem_singleton.1 hp]
  exact h.hasTargets v (h.victim v hv)

variable (look) in
/-- `selectNextVictim` gives a reference that can be attacked if it finds one, or none. -/
theorem selectNextVictim_spec (h : m.Ordered) :
    (m.FindsVictim look →
      ∃ q, m.selectNextVictim exact look = some (some q) ∧ m.canAttack look q = true) ∧
    (¬m.FindsVictim look → m.selectNextVictim exact look = some none) := by
  obtain ⟨hfound, hagain, hnone⟩ := scan_preferred look h.hasTargets
    fun v hv => h.victim_hasTargets hv
  have hleft : ∀ v, m.victimAfter look m.currentVictim m.threatList.dropLast = some v →
      m.HasTargets [v] :=
    fun v hv => h.victim_hasTargets ((victimAfter_eq_some_iff m look).1 hv).1
  obtain ⟨hall, hallnone⟩ := scan_all look h.hasTargets hleft
  by_cases hfirst : m.FoundAmong look m.currentVictim m.threatList
  · obtain ⟨q, hscan, hq⟩ := hfound hfirst
    rw [selectNextVictim, hscan]
    exact ⟨fun _ => ⟨q, rfl, hq⟩, fun hno => absurd (.inl hfirst) hno⟩
  · by_cases hlast : m.LastSecond look m.threatList
    · rw [selectNextVictim, hagain hfirst hlast]
      dsimp only
      by_cases hsecond : ∃ p ∈ m.threatList, m.canAttack look p = true ∧
          ¬m.PassedBy look (m.victimAfter look m.currentVictim m.threatList.dropLast) p
      · obtain ⟨q, hscan, hq⟩ := hall hsecond
        rw [hscan]
        exact ⟨fun _ => ⟨q, rfl, hq⟩, fun hno => absurd (.inr ⟨hlast, hsecond⟩) hno⟩
      · have hpassed : ∀ p ∈ m.threatList, m.canAttack look p = true →
            m.PassedBy look (m.victimAfter look m.currentVictim m.threatList.dropLast) p := by
          intro p hp hattack
          by_contra hnot
          exact hsecond ⟨p, hp, hattack, hnot⟩
        rw [hallnone hpassed]
        refine ⟨?_, fun _ => rfl⟩
        rintro (hfind | ⟨-, hfind⟩)
        · exact absurd hfind hfirst
        · exact absurd hfind hsecond
    · rw [selectNextVictim, hnone hfirst hlast]
      refine ⟨?_, fun _ => rfl⟩
      rintro (hfind | ⟨hfind, -⟩)
      · exact absurd hfind hfirst
      · exact absurd hfind hlast

/-- The first preferred reference of the list that can be attacked and is not passed by, beside the
victim `v`, is `p`. -/
def FirstStop (m : ThreatManager ℚ) (look : ℕ → VictimView) (v p : ℕ) (l : List ℕ) : Prop :=
  ∃ a b, l = a ++ p :: b ∧ m.preferred look p = true ∧ m.canAttack look p = true ∧
    ¬m.PassedBy look (some v) p ∧
    ∀ q ∈ a, m.preferred look q = true → m.canAttack look q = true → m.PassedBy look (some v) q

/-- The list has a first stop if any of its references is a stop. -/
theorem exists_firstStop : ∀ {l : List ℕ}, (∃ x ∈ l, m.preferred look x = true ∧
    m.canAttack look x = true ∧ ¬m.PassedBy look (some v) x) → ∃ p, m.FirstStop look v p l
  | [], ⟨x, hx, _⟩ => by cases hx
  | y :: l, ⟨x, hx, hstop⟩ => by
    by_cases hy : m.preferred look y = true ∧ m.canAttack look y = true ∧
        ¬m.PassedBy look (some v) y
    · exact ⟨y, [], l, rfl, hy.1, hy.2.1, hy.2.2, fun q hq => by cases hq⟩
    · have hxl : x ∈ l := by
        rcases mem_cons.1 hx with rfl | hx
        · exact absurd hstop hy
        · exact hx
      obtain ⟨p, a, b, rfl, hp, hattack, hnot, hbefore⟩ := exists_firstStop ⟨x, hxl, hstop⟩
      refine ⟨p, y :: a, b, rfl, hp, hattack, hnot, fun q hq hpref hq' => ?_⟩
      rcases mem_cons.1 hq with rfl | hq
      · by_contra hpass
        exact hy ⟨hpref, hq', hpass⟩
      · exact hbefore q hq hpref hq'

theorem firstStop_unique : ∀ {l : List ℕ} {p q : ℕ}, m.FirstStop look v p l →
    m.FirstStop look v q l → p = q
  | [], _, _, ⟨a, b, heq, _⟩, _ => by simp at heq
  | y :: l, p, q, ⟨a, b, heq, hp, hattack, hnot, hbefore⟩,
      ⟨a', b', heq', hp', hattack', hnot', hbefore'⟩ => by
    cases a with
    | nil =>
      obtain ⟨rfl, rfl⟩ := List.cons.inj heq
      cases a' with
      | nil => exact (List.cons.inj heq').1
      | cons x a' =>
        obtain ⟨rfl, -⟩ := List.cons.inj heq'
        exact absurd (hbefore' y mem_cons_self hp hattack) hnot
    | cons x a =>
      obtain ⟨rfl, rfl⟩ := List.cons.inj heq
      cases a' with
      | nil =>
        obtain ⟨rfl, -⟩ := List.cons.inj heq'
        exact absurd (hbefore y mem_cons_self hp' hattack') hnot'
      | cons x' a' =>
        obtain ⟨-, hl⟩ := List.cons.inj heq'
        refine firstStop_unique ⟨a, b, rfl, hp, hattack, hnot, fun z hz => ?_⟩
          ⟨a', b', hl, hp', hattack', hnot', fun z hz => ?_⟩
        · exact hbefore z (mem_cons_of_mem y hz)
        · exact hbefore' z (mem_cons_of_mem x' hz)

/-- With a preferred victim that can be attacked, the scan decides at the first stop. -/
theorem scan_firstStop (hv : m.canAttack look v = true) (hpref : m.preferred look v = true)
    (hvt : m.HasTargets [v]) : ∀ {l : List ℕ}, m.HasTargets l → m.FirstStop look v p l →
      m.scan exact look false (some v) l =
        .found (if v ≠ p ∧ 11 / 10 * m.threatOf v < m.threatOf p then p else v)
  | [], _, ⟨a, b, heq, _⟩ => by simp at heq
  | y :: l, hl, ⟨a, b, heq, hp, hattack, hnot, hbefore⟩ => by
    obtain ⟨r, u, hr, hu⟩ := hl y mem_cons_self
    have hcv : ∀ v', some v = some v' → m.HasTargets [v'] := by
      rintro v' ⟨rfl⟩
      exact hvt
    cases a with
    | nil =>
      obtain ⟨rfl, rfl⟩ := List.cons.inj heq
      obtain ⟨q, hscan, -, hq⟩ := scan_found l hr hu hcv (.inr hp) hattack hnot
      rw [hscan, hq v rfl hv]
    | cons x a =>
      obtain ⟨rfl, rfl⟩ := List.cons.inj heq
      have hrest := scan_firstStop hv hpref hvt hl.tail
        ⟨a, b, rfl, hp, hattack, hnot, fun q hq => hbefore q (mem_cons_of_mem y hq)⟩
      cases hy : m.preferred look y with
      | true =>
        rw [scan_passed hr hu hcv (.inr hy) (hbefore y mem_cons_self hy), hrest]
      | false =>
        have hne : some v ≠ some y := by
          rintro ⟨rfl⟩
          rw [hpref] at hy
          cases hy
        rw [scan_secondChoice hr hu hy, if_neg (by simp), if_neg hne, hrest]

/-! ## The rule -/

/-- What a call of `getHostilTarget` should do : give a unit that can be attacked if there is one
online, and replace a victim that is preferred and can be attacked exactly by a preferred reference
that beats it. -/
def ObeysRule (m : ThreatManager ℚ) (look : ℕ → VictimView) : Prop :=
  ∃ target m', m.getHostilTarget exact look = some (target, m') ∧
    ((∃ p ∈ m.threatList, m.canAttack look p = true) →
      ∃ u, target = some u ∧ (look u).canAttack = true) ∧
    ∀ v, m.currentVictim = some v → m.canAttack look v = true → m.preferred look v = true →
      (∀ p, m'.currentVictim = some p → p ≠ v →
        p ∈ m.threatList ∧ m.preferred look p = true ∧ m.canAttack look p = true ∧
          m.Beats look v p) ∧
      (m'.currentVictim = some v → ∀ p ∈ m.threatList, p ≠ v → m.preferred look p = true →
        m.canAttack look p = true → ¬m.Beats look v p)

/-- Where some reference beats a preferred victim that can be attacked, the first stop of the list is
another reference than the victim, above 1.1 times its threat. -/
def KeepsRule (m : ThreatManager ℚ) (look : ℕ → VictimView) : Prop :=
  ∀ v, m.currentVictim = some v → m.canAttack look v = true → m.preferred look v = true →
    (∃ x ∈ m.threatList, x ≠ v ∧ m.preferred look x = true ∧ m.canAttack look x = true ∧
      m.Beats look v x) →
    ∃ p, m.FirstStop look v p m.threatList ∧ v ≠ p ∧ 11 / 10 * m.threatOf v < m.threatOf p

/-- A reference that is not passed by, other than the victim and above 1.1 times its threat, beats
it. -/
theorem beats_of_not_passedBy (hnot : ¬m.PassedBy look (some v) p) (hne : v ≠ p)
    (hmore : 11 / 10 * m.threatOf v < m.threatOf p) : m.Beats look v p := by
  by_contra hbeats
  exact hnot ⟨v, rfl, hne, hmore, hbeats⟩

/-- The choice of a state whose list is sorted or not dirty. -/
theorem selectNextVictim_iff (h : m.Ordered) {victim : Option ℕ}
    (hselect : m.selectNextVictim exact look = some victim) :
    (((∃ p ∈ m.threatList, m.canAttack look p = true) →
        ∃ q, victim = some q ∧ m.canAttack look q = true) ↔
      ((∃ p ∈ m.threatList, m.canAttack look p = true) → m.FindsVictim look)) ∧
    ((∀ v, m.currentVictim = some v → m.canAttack look v = true → m.preferred look v = true →
      (∀ p, victim = some p → p ≠ v → p ∈ m.threatList ∧ m.preferred look p = true ∧
        m.canAttack look p = true ∧ m.Beats look v p) ∧
      (victim = some v → ∀ p ∈ m.threatList, p ≠ v → m.preferred look p = true →
        m.canAttack look p = true → ¬m.Beats look v p)) ↔ m.KeepsRule look) := by
  obtain ⟨hfinds, hnone⟩ := selectNextVictim_spec look h
  constructor
  · refine imp_congr_right fun _ => ⟨?_, fun hfind => ?_⟩
    · rintro ⟨q, rfl, -⟩
      by_contra hfind
      rw [hnone hfind] at hselect
      cases hselect
    · obtain ⟨q, hq, hattack⟩ := hfinds hfind
      rw [hselect, some.injEq] at hq
      exact ⟨q, hq, hattack⟩
  · refine forall_congr' fun v => imp_congr_right fun hv => imp_congr_right fun hattackv =>
      imp_congr_right fun hprefv => ?_
    have hstopv : ∃ x ∈ m.threatList, m.preferred look x = true ∧ m.canAttack look x = true ∧
        ¬m.PassedBy look (some v) x := by
      refine ⟨v, h.victim v hv, hprefv, hattackv, ?_⟩
      rintro ⟨v', hv', hne, -⟩
      exact hne (some.inj hv').symm
    obtain ⟨p, hstop⟩ := exists_firstStop hstopv
    have hscan := scan_firstStop hattackv hprefv (h.victim_hasTargets hv) h.hasTargets hstop
    rw [selectNextVictim, hv, hscan] at hselect
    obtain rfl := some.inj hselect
    obtain ⟨a, b, heq, hp, hattack, hnot, hbefore⟩ := hstop
    have hmem : p ∈ m.threatList := heq ▸ mem_append_right a mem_cons_self
    constructor
    · rintro ⟨-, hkept⟩ ⟨x, hx, hxv, hprefx, hattackx, hbeats⟩
      by_cases htaken : v ≠ p ∧ 11 / 10 * m.threatOf v < m.threatOf p
      · exact ⟨p, ⟨a, b, heq, hp, hattack, hnot, hbefore⟩, htaken⟩
      · exact absurd hbeats (hkept (by rw [if_neg htaken]) x hx hxv hprefx hattackx)
    · intro hrule
      by_cases htaken : v ≠ p ∧ 11 / 10 * m.threatOf v < m.threatOf p
      · rw [if_pos htaken]
        refine ⟨?_, ?_⟩
        · rintro q ⟨rfl⟩ -
          exact ⟨hmem, hp, hattack, beats_of_not_passedBy hnot htaken.1 htaken.2⟩
        · rintro ⟨rfl⟩
          exact absurd rfl htaken.1
      · rw [if_neg htaken]
        refine ⟨?_, fun _ x hx hxv hprefx hattackx hbeats => ?_⟩
        · rintro q ⟨rfl⟩ hqv
          exact absurd rfl hqv
        · obtain ⟨p', hstop', htaken'⟩ := hrule ⟨x, hx, hxv, hprefx, hattackx, hbeats⟩
          have hpp := firstStop_unique hstop' ⟨a, b, heq, hp, hattack, hnot, hbefore⟩
          rw [hpp] at htaken'
          exact htaken htaken'

/-- `getHostilTarget` obeys the rule exactly where the scans of the updated list find a reference if
any can be attacked, and its first stop is right. -/
theorem getHostilTarget_iff (h : m.Ordered) : m.ObeysRule look ↔
    ((∃ p ∈ (m.update exact).threatList, (m.update exact).canAttack look p = true) →
      (m.update exact).FindsVictim look) ∧ (m.update exact).KeepsRule look := by
  have hupdate : (m.update exact).Ordered := h.update
  have hmem : ∀ p, p ∈ (m.update exact).threatList ↔ p ∈ m.threatList :=
    fun p => (update_perm m).mem_iff
  obtain ⟨victim, hselect, hvictim⟩ := hupdate.selectNextVictim (o := exact) look
  obtain ⟨hattackable, hrule⟩ := selectNextVictim_iff hupdate hselect
  have htarget : (∃ u, (victim.bind m.refs).bind HostileReference.target = some u ∧
      (look u).canAttack = true) ↔
      ∃ q, victim = some q ∧ (m.update exact).canAttack look q = true := by
    constructor
    · rintro ⟨u, hu, hattack⟩
      cases victim with
      | none => cases hu
      | some q =>
        refine ⟨q, rfl, ?_⟩
        rw [bind_some] at hu
        have hview : (m.update exact).viewOf look q = look u := by
          change m.viewOf look q = look u
          rw [viewOf, hu]
        rw [canAttack, hview, hattack]
    · rintro ⟨q, rfl, hattack⟩
      obtain ⟨r, u, hr, hu⟩ := hupdate.hasTargets q (hvictim q rfl)
      refine ⟨u, ?_, ?_⟩
      · rw [bind_some]
        exact (congrArg (Option.bind · HostileReference.target) hr).trans hu
      · rwa [canAttack, viewOf_eq hr hu] at hattack
  rw [← hattackable, ← hrule, ← htarget, ObeysRule, getHostilTarget, hselect]
  simp only [hmem, map_some, some.injEq, Prod.mk.injEq]
  constructor
  · rintro ⟨target, m', ⟨rfl, rfl⟩, hobeys⟩
    exact hobeys
  · intro hobeys
    exact ⟨_, _, ⟨rfl, rfl⟩, hobeys⟩

/-! ## The order of the references -/

/-- One reference comes before the other in the scan : where the dirty flag is set, the one with more
threat, and otherwise as the list has them. -/
def Before (m : ThreatManager ℚ) (p q : ℕ) : Prop :=
  if m.dirty then
    m.threatOf q < m.threatOf p ∨ (m.threatOf q = m.threatOf p ∧ [p, q].Sublist m.threatList)
  else [p, q].Sublist m.threatList

/-- The order of the sort. -/
def Above (m : ThreatManager ℚ) (p q : ℕ) : Prop :=
  (!exact.lt (m.getThreat exact p) (m.getThreat exact q)) = true

theorem above_iff : m.Above p q ↔ m.threatOf q ≤ m.threatOf p := by
  simp [Above, threatOf, exact]

instance (m : ThreatManager ℚ) : DecidableRel m.Above :=
  fun _ _ => inferInstanceAs (Decidable (_ = true))

instance (m : ThreatManager ℚ) : Std.Total m.Above where
  total p q := by
    rw [above_iff, above_iff]
    exact le_total _ _

instance (m : ThreatManager ℚ) : IsTrans ℕ m.Above where
  trans p q x hpq hqx := by
    rw [above_iff] at hpq hqx ⊢
    exact hqx.trans hpq

theorem pair_sublist_append {a b : List ℕ} (hq : q ∉ a) :
    [q, p].Sublist (a ++ b) ↔ [q, p].Sublist b := by
  induction a with
  | nil => rfl
  | cons x a ih =>
    rw [mem_cons, not_or] at hq
    rw [← ih hq.2]
    exact ⟨fun h => h.of_cons_of_ne hq.1, fun h => h.cons x⟩

/-- What stands before an element of a list without duplicates. -/
theorem mem_left_iff {a b : List ℕ} (hnodup : (a ++ p :: b).Nodup) (hne : q ≠ p) :
    q ∈ a ↔ [q, p].Sublist (a ++ p :: b) := by
  constructor
  · intro hq
    exact (singleton_sublist.2 hq).append (singleton_sublist.2 mem_cons_self)
  · intro h
    by_contra hq
    have hb := (((pair_sublist_append hq).1 h).of_cons_of_ne hne).subset
      (mem_cons_of_mem q (mem_singleton_self p))
    exact (nodup_cons.1 (nodup_append.1 hnodup).2.1).1 hb

theorem pair_total {l : List ℕ} (hnodup : l.Nodup) (hp : p ∈ l) (hq : q ∈ l) (hne : p ≠ q) :
    [p, q].Sublist l ∨ [q, p].Sublist l := by
  obtain ⟨a, b, rfl⟩ := append_of_mem hp
  rcases mem_append.1 hq with hqa | hqb
  · exact .inr ((mem_left_iff hnodup hne.symm).1 hqa)
  · have hqb := (mem_cons.1 hqb).resolve_left hne.symm
    exact .inl (((singleton_sublist.2 hqb).cons_cons p).trans (sublist_append_right a _))

theorem pair_asymm {l : List ℕ} (hnodup : l.Nodup) (h : [p, q].Sublist l) : ¬[q, p].Sublist l := by
  intro h'
  have hne : p ≠ q := by
    rintro rfl
    exact (nodup_cons.1 (h.nodup hnodup)).1 (mem_singleton_self p)
  obtain ⟨a, b, rfl⟩ := append_of_mem (h.subset mem_cons_self)
  have hqa := (mem_left_iff hnodup hne.symm).2 h'
  have hqb := ((pair_sublist_append fun hpa =>
    (nodup_append.1 hnodup).2.2 p hpa p mem_cons_self rfl).1 h).of_cons_cons
  exact (nodup_append.1 hnodup).2.2 q hqa q
    (mem_cons_of_mem p (singleton_sublist.1 hqb)) rfl

/-- The order of a list that is not dirty. -/
theorem before_clean (hclean : m.dirty = false) (p q : ℕ) :
    m.Before p q ↔ [p, q].Sublist m.threatList := by
  rw [Before, hclean, if_neg Bool.false_ne_true]

/-- The sort leaves references with the same threat in their order. -/
theorem before_iff (h : m.Ordered) (hp : p ∈ m.threatList) (hq : q ∈ m.threatList) (hne : p ≠ q) :
    (m.update exact).Before p q ↔ m.Before p q := by
  rw [before_clean rfl, Before, update]
  cases hdirty : m.dirty with
  | false => rw [if_neg fun h => Bool.false_ne_true h.1, if_neg Bool.false_ne_true]
  | true =>
    have hsize : 1 < m.threatList.length := by
      by_contra hsize
      obtain ⟨a, b, heq⟩ := append_of_mem hp
      rw [heq] at hq hsize
      have hnil : a = [] ∧ b = [] := by
        rw [← length_eq_zero_iff, ← length_eq_zero_iff]
        simp only [length_append, length_cons] at hsize
        omega
      rw [hnil.1, hnil.2] at hq
      exact hne (mem_singleton.1 hq).symm
    have hsorts : ∀ {x y}, m.Above x y → [x, y].Sublist m.threatList →
        [x, y].Sublist (m.threatList.insertionSort m.Above) := fun hxy =>
      pair_sublist_insertionSort hxy
    have hnodup : (m.threatList.insertionSort m.Above).Nodup :=
      (perm_insertionSort _ _).nodup_iff.2 h.threatList_nodup
    have hfalls : ∀ {x y}, [x, y].Sublist (m.threatList.insertionSort m.Above) →
        m.threatOf y ≤ m.threatOf x := fun hxy => above_iff.1
      (rel_of_pairwise_cons ((pairwise_insertionSort m.Above _).sublist hxy)
        (mem_singleton_self _))
    rw [if_pos ⟨rfl, hsize⟩, if_pos rfl]
    have hmem : ∀ {x}, x ∈ m.threatList → x ∈ m.threatList.insertionSort m.Above :=
      fun hx => (mem_insertionSort _).2 hx
    constructor
    · intro hpq
      refine (hfalls hpq).lt_or_eq.imp_right fun heq => ⟨heq, ?_⟩
      refine (pair_total h.threatList_nodup hp hq hne).resolve_right fun hqp => ?_
      exact pair_asymm hnodup hpq (hsorts (above_iff.2 heq.ge) hqp)
    · rintro (hlt | ⟨heq, hpq⟩)
      · exact (pair_total hnodup (hmem hp) (hmem hq) hne).resolve_right fun hqp =>
          absurd (hfalls hqp) (not_le.2 hlt)
      · exact hsorts (above_iff.2 heq.le) hpq

/-- A reference does not come before itself. -/
theorem Before.ne (h : m.Ordered) (hpq : m.Before p q) : p ≠ q := by
  rintro rfl
  have hself : ¬[p, p].Sublist m.threatList := fun hpp => pair_asymm h.threatList_nodup hpp hpp
  rw [Before] at hpq
  split_ifs at hpq
  · exact hself (hpq.resolve_left (lt_irrefl _)).2
  · exact hself hpq

/-! ## When the choice is right -/

/-- The victim hides a reference : it has more threat, not enough to replace the victim, and the
victim is no second choice that comes before it. -/
def Hidden (m : ThreatManager ℚ) (look : ℕ → VictimView) (p : ℕ) : Prop :=
  ∃ v, m.currentVictim = some v ∧ m.PassedBy look (some v) p ∧
    (m.preferred look v = true ∨ ¬m.Before v p)

/-- What the choice needs of the threat, the order and the units of the references. If some can be
attacked, a preferred one is that is not hidden, or a second choice is the last one and one can be
attacked that the victim, if it is still there, does not hide. If some beat a preferred victim that
can be attacked, one that does comes before the victim and before all preferred ones that can be
attacked with at most 1.1 times the threat of the victim. -/
structure ChoosesRight (m : ThreatManager ℚ) (look : ℕ → VictimView) : Prop where
  finds : (∃ p ∈ m.threatList, m.canAttack look p = true) →
    (∃ p ∈ m.threatList, m.preferred look p = true ∧ m.canAttack look p = true ∧
      ¬m.Hidden look p) ∨
    ∃ z ∈ m.threatList, m.preferred look z = false ∧
      (∀ p ∈ m.threatList, p ≠ z → m.Before p z) ∧
      ∃ p ∈ m.threatList, m.canAttack look p = true ∧
        ∀ v, m.currentVictim = some v → m.preferred look v = true ∨ v = z →
          ¬m.PassedBy look (some v) p
  keeps : ∀ v, m.currentVictim = some v → m.canAttack look v = true → m.preferred look v = true →
    (∃ x ∈ m.threatList, x ≠ v ∧ m.preferred look x = true ∧ m.canAttack look x = true ∧
      m.Beats look v x) →
    ∃ x ∈ m.threatList, x ≠ v ∧ m.preferred look x = true ∧ m.canAttack look x = true ∧
      m.Beats look v x ∧ 11 / 10 * m.threatOf v < m.threatOf x ∧
      ∀ y ∈ m.threatList, m.preferred look y = true → m.canAttack look y = true →
        m.Before y x → y ≠ v ∧ 11 / 10 * m.threatOf v < m.threatOf y

/-- Where the dirty flag is set and the threat of the victim is not negative, every reference that
beats it is one as `keeps` asks for. -/
theorem keeps_of_dirty (hdirty : m.dirty = true) (hpos : 0 ≤ m.threatOf v)
    (hbeats : m.Beats look v p) :
    11 / 10 * m.threatOf v < m.threatOf p ∧
      ∀ y, m.Before y p → y ≠ v ∧ 11 / 10 * m.threatOf v < m.threatOf y := by
  have hmore : 11 / 10 * m.threatOf v < m.threatOf p := by
    rcases hbeats with hmore | ⟨hmore, -⟩
    · linarith
    · exact hmore
  refine ⟨hmore, fun y hy => ?_⟩
  rw [Before, if_pos hdirty] at hy
  have hle : m.threatOf p ≤ m.threatOf y := hy.elim le_of_lt fun heq => heq.1.le
  refine ⟨?_, hmore.trans_le hle⟩
  rintro rfl
  linarith

/-- When a preferred reference is found, by the order of the list. -/
theorem foundAmong_iff {l : List ℕ} (hnodup : l.Nodup) : m.FoundAmong look cv l ↔
    ∃ p ∈ l, m.preferred look p = true ∧ m.canAttack look p = true ∧
      ¬∃ v, cv = some v ∧ m.PassedBy look (some v) p ∧
        (m.preferred look v = true ∨ ¬[v, p].Sublist l) := by
  have hafter : ∀ {a p b}, (a ++ p :: b).Nodup → (m.PassedBy look (m.victimAfter look cv a) p ↔
      ∃ v, cv = some v ∧ m.PassedBy look (some v) p ∧
        (m.preferred look v = true ∨ ¬[v, p].Sublist (a ++ p :: b))) := by
    intro a p b hnodup
    constructor
    · rintro ⟨v, hv, hne, hpass⟩
      obtain ⟨hcv, hleft⟩ := (victimAfter_eq_some_iff m look).1 hv
      exact ⟨v, hcv, ⟨v, rfl, hne, hpass⟩, by rwa [← mem_left_iff hnodup hne]⟩
    · rintro ⟨v, hcv, ⟨v', hv', hne, hpass⟩, hleft⟩
      obtain rfl := some.inj hv'
      rw [← mem_left_iff hnodup hne] at hleft
      exact ⟨v, (victimAfter_eq_some_iff m look).2 ⟨hcv, hleft⟩, hne, hpass⟩
  constructor
  · rintro ⟨a, p, b, rfl, hpref, hattack, hnot⟩
    exact ⟨p, mem_append_right a mem_cons_self, hpref, hattack,
      fun h => hnot ((hafter hnodup).2 h)⟩
  · rintro ⟨p, hp, hpref, hattack, hnot⟩
    obtain ⟨a, b, rfl⟩ := append_of_mem hp
    exact ⟨a, p, b, rfl, hpref, hattack, fun h => hnot ((hafter hnodup).1 h)⟩

/-- The last reference of the list, by its order. -/
theorem last_iff {l : List ℕ} {z : ℕ} (hnodup : l.Nodup) : l.getLast? = some z ↔
    z ∈ l ∧ ∀ p ∈ l, p ≠ z → [p, z].Sublist l := by
  rw [List.getLast?_eq_some_iff]
  constructor
  · rintro ⟨a, rfl⟩
    refine ⟨mem_append_right a (mem_singleton_self z), fun p hp hne => ?_⟩
    rcases mem_append.1 hp with hpa | hpz
    · exact (mem_left_iff hnodup hne).1 hpa
    · exact absurd (mem_singleton.1 hpz) hne
  · rintro ⟨hz, hlast⟩
    obtain ⟨a, b, rfl⟩ := append_of_mem hz
    cases b with
    | nil => exact ⟨a, rfl⟩
    | cons y b =>
      have hy : y ∈ a ++ z :: y :: b := mem_append_right a (by simp)
      have hne : y ≠ z := by
        rintro rfl
        exact (nodup_cons.1 (nodup_append.1 hnodup).2.1).1 mem_cons_self
      have hya := (mem_left_iff hnodup hne).2 (hlast y hy hne)
      exact absurd rfl ((nodup_append.1 hnodup).2.2 y hya y
        (mem_cons_of_mem z mem_cons_self))

/-- When the scans find a reference, for a list that is not dirty. -/
theorem findsVictim_iff (h : m.Ordered) (hclean : m.dirty = false) : m.FindsVictim look ↔
    (∃ p ∈ m.threatList, m.preferred look p = true ∧ m.canAttack look p = true ∧
      ¬m.Hidden look p) ∨
    ∃ z ∈ m.threatList, m.preferred look z = false ∧
      (∀ p ∈ m.threatList, p ≠ z → m.Before p z) ∧
      ∃ p ∈ m.threatList, m.canAttack look p = true ∧
        ∀ v, m.currentVictim = some v → m.preferred look v = true ∨ v = z →
          ¬m.PassedBy look (some v) p := by
  simp only [Hidden, before_clean hclean]
  have hnodup := h.threatList_nodup
  rw [FindsVictim, foundAmong_iff hnodup, LastSecond]
  refine or_congr_right ?_
  have hleft : ∀ {z}, m.threatList.getLast? = some z → ∀ p,
      (¬m.PassedBy look (m.victimAfter look m.currentVictim m.threatList.dropLast) p ↔
        ∀ v, m.currentVictim = some v → m.preferred look v = true ∨ v = z →
          ¬m.PassedBy look (some v) p) := by
    intro z hz p
    obtain ⟨a, heq⟩ := List.getLast?_eq_some_iff.1 hz
    have hlast : ∀ v, m.currentVictim = some v → (v = z ↔ v ∉ m.threatList.dropLast) := by
      intro v hv
      have hmem := h.victim v hv
      rw [heq, dropLast_concat]
      rw [heq, mem_append, mem_singleton] at hmem
      refine ⟨?_, hmem.resolve_left⟩
      rintro rfl hva
      rw [heq] at hnodup
      exact (nodup_append.1 hnodup).2.2 v hva v (mem_singleton_self v) rfl
    constructor
    · rintro hnot v hv hkept ⟨v', hv', hpass⟩
      obtain rfl := some.inj hv'
      rw [hlast v hv] at hkept
      exact hnot ⟨v, (victimAfter_eq_some_iff m look).2 ⟨hv, hkept⟩, hpass⟩
    · rintro hall ⟨v, hv, hpass⟩
      obtain ⟨hcv, hkept⟩ := (victimAfter_eq_some_iff m look).1 hv
      rw [← hlast v hcv] at hkept
      exact hall v hcv hkept ⟨v, rfl, hpass⟩
  constructor
  · rintro ⟨⟨z, hz, hsecond⟩, p, hp, hattack, hnot⟩
    obtain ⟨hmem, hlast⟩ := (last_iff hnodup).1 hz
    exact ⟨z, hmem, hsecond, hlast, p, hp, hattack, (hleft hz p).1 hnot⟩
  · rintro ⟨z, hmem, hsecond, hlast, p, hp, hattack, hall⟩
    have hz := (last_iff hnodup).2 ⟨hmem, hlast⟩
    exact ⟨⟨z, hz, hsecond⟩, p, hp, hattack, (hleft hz p).2 hall⟩

/-- When the choice is right, for a list that is not dirty. -/
theorem choosesRight_iff (h : m.Ordered) (hclean : m.dirty = false) : m.ChoosesRight look ↔
    ((∃ p ∈ m.threatList, m.canAttack look p = true) → m.FindsVictim look) ∧
      m.KeepsRule look := by
  have hnodup := h.threatList_nodup
  rw [findsVictim_iff h hclean]
  constructor
  · rintro ⟨hfinds, hkeeps⟩
    refine ⟨hfinds, fun v hv hattackv hprefv hbeaten => ?_⟩
    obtain ⟨x, hx, hxv, hprefx, hattackx, hbeats, hmore, hbefore⟩ :=
      hkeeps v hv hattackv hprefv hbeaten
    have hstop : ¬m.PassedBy look (some v) x := by
      rintro ⟨v', hv', -, -, hnot⟩
      exact hnot (some.inj hv' ▸ hbeats)
    obtain ⟨p, a, b, heq, hpref, hattack, hnot, hpassed⟩ :=
      exists_firstStop ⟨x, hx, hprefx, hattackx, hstop⟩
    refine ⟨p, ⟨a, b, heq, hpref, hattack, hnot, hpassed⟩, ?_⟩
    have hmem : p ∈ m.threatList := heq ▸ mem_append_right a mem_cons_self
    by_cases hpx : p = x
    · rw [hpx]
      exact ⟨hxv.symm, hmore⟩
    · -- what stands before the first stop is passed by, which `x` is not
      have horder : [p, x].Sublist m.threatList := by
        refine (pair_total hnodup hmem hx hpx).resolve_right fun hxp => ?_
        rw [heq] at hxp hnodup
        exact hstop (hpassed x ((mem_left_iff hnodup (Ne.symm hpx)).2 hxp) hprefx hattackx)
      obtain ⟨hpv, hmorep⟩ := hbefore p hmem hpref hattack ((before_clean hclean p x).2 horder)
      exact ⟨hpv.symm, hmorep⟩
  · rintro ⟨hfinds, hrule⟩
    refine ⟨hfinds, fun v hv hattackv hprefv hbeaten => ?_⟩
    obtain ⟨p, ⟨a, b, heq, hpref, hattack, hnot, hbefore⟩, hne, hmore⟩ :=
      hrule v hv hattackv hprefv hbeaten
    have hmem : p ∈ m.threatList := heq ▸ mem_append_right a mem_cons_self
    refine ⟨p, hmem, hne.symm, hpref, hattack, beats_of_not_passedBy hnot hne hmore, hmore,
      fun y _ hprefy hattacky hyp => ?_⟩
    have hyne := hyp.ne h
    rw [before_clean hclean, heq] at hyp
    rw [heq] at hnodup
    obtain ⟨v', hv', hyv, hmorey, -⟩ :=
      hbefore y ((mem_left_iff hnodup hyne).2 hyp) hprefy hattacky
    obtain rfl := some.inj hv'
    exact ⟨hyv.symm, hmorey⟩

/-- The choice stays right in another list with the references in the same order. -/
theorem ChoosesRight.reorder (hright : m.ChoosesRight look) (h : m.Ordered) {l : List ℕ} {d : Bool}
    (h' : Ordered { m with threatList := l, dirty := d }) (hmem : ∀ p, p ∈ l ↔ p ∈ m.threatList)
    (hbefore : ∀ {p q}, p ∈ m.threatList → q ∈ m.threatList → p ≠ q →
      (Before { m with threatList := l, dirty := d } p q ↔ m.Before p q)) :
    ChoosesRight { m with threatList := l, dirty := d } look where
  finds := by
    rintro ⟨y, hy, hattacky⟩
    refine (hright.finds ⟨y, (hmem y).1 hy, hattacky⟩).imp ?_ ?_
    · rintro ⟨p, hp, hpref, hattack, hnot⟩
      refine ⟨p, (hmem p).2 hp, hpref, hattack, ?_⟩
      rintro ⟨v, hv, ⟨v', hv', hne, hpass⟩, hleft⟩
      obtain rfl := some.inj hv'
      rw [hbefore (h.victim v hv) hp hne] at hleft
      exact hnot ⟨v, hv, ⟨v, rfl, hne, hpass⟩, hleft⟩
    · rintro ⟨z, hz, hsecond, hlast, p, hp, hleft⟩
      exact ⟨z, (hmem z).2 hz, hsecond, fun q hq hne =>
        (hbefore ((hmem q).1 hq) hz hne).2 (hlast q ((hmem q).1 hq) hne), p, (hmem p).2 hp, hleft⟩
  keeps := by
    rintro v hv hattackv hprefv ⟨y, hy, hrest⟩
    obtain ⟨x, hx, hne, hpref, hattack, hbeats, hmore, hfirst⟩ :=
      hright.keeps v hv hattackv hprefv ⟨y, (hmem y).1 hy, hrest⟩
    refine ⟨x, (hmem x).2 hx, hne, hpref, hattack, hbeats, hmore, fun q hq hprefq hattackq hqx => ?_⟩
    have hq := (hmem q).1 hq
    exact hfirst q hq hprefq hattackq ((hbefore hq hx (hqx.ne h')).1 hqx)

/-- In every reachable state `getHostilTarget` obeys the rule exactly where the threat, the order
and the units of the references are such that the choice is right. -/
theorem victim_run (rs : List (Request ℚ)) (look : ℕ → VictimView) :
    (run (serve exact) {} rs).ObeysRule look ↔ (run (serve exact) {} rs).ChoosesRight look := by
  have h := ordered_run exact rs
  generalize run (serve exact) {} rs = m at h
  have hmem : ∀ p, p ∈ (m.update exact).threatList ↔ p ∈ m.threatList :=
    fun p => (update_perm m).mem_iff
  rw [getHostilTarget_iff h, ← choosesRight_iff h.update rfl]
  constructor
  · intro hright
    exact hright.reorder (l := m.threatList) (d := m.dirty) h.update h (fun p => (hmem p).symm)
      fun hp hq hne => (before_iff h ((hmem _).1 hp) ((hmem _).1 hq) hne).symm
  · intro hright
    exact hright.reorder h h.update hmem (before_iff h)

/-- A plain world. -/
def plainWorld : ThreatWorld where
  self := 0
  owners_tail := fun h => by cases h

/-- A reference with much threat comes online while there is no victim. -/
def unsortedRequests : List (Request ℚ) :=
  [.addThreat plainWorld 1 100, .addThreat plainWorld 2 500, .setOnlineOfflineState 1 false,
    .getHostilTarget fun _ => { canAttack := false }, .setOnlineOfflineState 1 true,
    .getHostilTarget fun _ => {}]

/-- The list is not dirty then, and the victim is kept although another reference has five times its
threat. -/
theorem getHostilTarget_unsorted :
    ¬(run (serve exact) {} unsortedRequests).ObeysRule fun _ => {} := by
  rintro ⟨target, m', hcall, -, hrule⟩
  have hvictim : (run (serve exact) {} unsortedRequests).currentVictim = some 0 := by
    decide +kernel
  have hattack : (run (serve exact) {} unsortedRequests).canAttack (fun _ => {}) 0 = true := by
    decide +kernel
  have hpref : (run (serve exact) {} unsortedRequests).preferred (fun _ => {}) 0 = true := by
    decide +kernel
  have hkept : ((run (serve exact) {} unsortedRequests).getHostilTarget exact fun _ => {}).map
      (fun r => r.2.currentVictim) = some (some 0) := by
    decide +kernel
  rw [hcall, map_some, some.injEq] at hkept
  refine (hrule 0 hvictim hattack hpref).2 hkept 1 ?_ (by decide) ?_ ?_ (.inl ?_)
  · decide +kernel
  · decide +kernel
  · decide +kernel
  · decide +kernel

end ThreatManager

end MistyWorld
