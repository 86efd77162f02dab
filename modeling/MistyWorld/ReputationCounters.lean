import MistyWorld.ReputationRelog
import Mathlib.Tactic.LinearCombination

/-!
# The counters of the reputation list

`ReputationMgr` counts the visible factions and those that are honored, revered or exalted, in a
byte each. The counters change with single states : `Initialize`, `LoadFromDB`, `SetVisible` and
`SetOneFactionReputation` take the old rank out and the new one in. `Account` is the manager with
its counters, and `setReputationOn` the spillover of `SetReputation` over any state that has a
manager in it.

In every run the counters are the numbers of such factions, what was changed is within the bounds
of a reputation from then on, and a hostile faction is at war when it was changed
(`reputation_invariants`). The sum of a gain and the reputation is formed in 32 bits before the bounds
are applied, and the spillover of a gain may come back to its faction : `MayGain` and `MayLose` are
when the reputation does not go the wrong way.
-/

open Option List Word Machine Rounding

namespace MistyWorld

namespace Reputation

open FactionState ReputationMgr

variable {F σ τ : Type*}

def repHonored : ℕ := 5
def repRevered : ℕ := 6
def repExalted : ℕ := 7

/-! ## The spillover -/

section Spillover

variable (t : Rules F) (view : σ → ReputationMgr)
  (setOne : σ → FactionEntry F → ℤ → Bool → σ × Bool)

/-- The body of the loop over the slots of a spillover definition. -/
def spillSlotOn (template : RepSpilloverTemplate F) (standing : ℤ) (incremental : Bool) (s : σ)
    (i : Fin 5) : σ :=
  if template.faction i ≠ 0 ∧
      (view s).getReputationRank t (template.faction i) ≤ template.factionRank i then
    match t.store.lookupEntry (template.faction i) with
    | none => s
    | some e =>
      (setOne s e (t.toInt32 (t.mul (t.toFloat standing) (template.factionRate i))) incremental).1
  else s

/-- The body of the loop over the factions of a team. -/
def spillTeamOn (e : FactionEntry F) (out : F) (incremental : Bool) (s : σ × Bool)
    (faction : ℕ) : σ × Bool :=
  match t.store.lookupEntry faction with
  | none => s
  | some other =>
    if other.ID = e.ID ∨ other.spilloverMaxRankIn < (view s.1).getRank t other then s
    else
      let spilloverRep := t.toInt32 (t.mul out other.spilloverRateIn)
      if spilloverRep ≠ 0 ∨ !incremental then setOne s.1 other spilloverRep incremental
      else s

/-- The spillover of a faction without definition. -/
def spillDefaultOn (s : σ) (e : FactionEntry F) (standing : ℤ) (incremental : Bool) : σ × Bool :=
  match t.factionTeamList e.ID with
  | some list =>
    list.foldl (spillTeamOn t view setOne e (t.toFloat standing) incremental) (s, false)
  | none =>
    if e.team ≠ 0 ∧ !t.isZero e.spilloverRateOut then
      let out := t.mul (t.toFloat standing) e.spilloverRateOut
      match t.store.lookupEntry e.team with
      | none => (s, false)
      | some parent =>
        if ((view s).getState parent).any fun f => hasFlag f.flags factionFlagSpecial then
          ((setOne s parent (t.toInt32 out) incremental).1, false)
        else
          match t.factionTeamList e.team with
          | some list => list.foldl (spillTeamOn t view setOne e out incremental) (s, false)
          | none => (s, false)
    else (s, false)

/-- What `SetReputation` does before the faction itself. -/
def spillOn (s : σ) (e : FactionEntry F) (standing : ℤ) (incremental : Bool) : σ × Bool :=
  match t.repSpillover e.ID with
  | some template =>
    ((List.finRange 5).foldl (spillSlotOn t view setOne template standing incremental) s, false)
  | none => spillDefaultOn t view setOne s e standing incremental

/-- `SetReputation`, over single changes. -/
def setReputationOn (s : σ) (e : FactionEntry F) (standing : ℤ) (incremental : Bool) : σ × Bool :=
  let standing := t.onReputationChange e.ID standing incremental
  let s := spillOn t view setOne s e standing incremental
  match (view s.1).getState e with
  | some _ => setOne s.1 e standing incremental
  | none => s

/-- The changes of the manager alone. -/
theorem setReputation_eq (m : ReputationMgr) (e : FactionEntry F) (standing : ℤ)
    (incremental : Bool) :
    m.setReputation t e standing incremental =
      setReputationOn t id (setOneFactionReputation t) m e standing incremental := by
  cases t.repSpillover e.ID <;> rfl

variable {t view setOne} {view' : τ → ReputationMgr}
  {setOne' : τ → FactionEntry F → ℤ → Bool → τ × Bool}

/-- Two states that the changes of the other factions keep related stay related when it spills over to
a team. -/
theorem spillTeams_rel {R : σ → τ → Prop} {e : FactionEntry F}
    (hview : ∀ s s', R s s' → view s = view' s')
    (hone : ∀ s s' a amount incremental, a ∈ t.store.entries → a.ID ≠ e.ID → R s s' →
      R (setOne s a amount incremental).1 (setOne' s' a amount incremental).1)
    (out : F) (incremental : Bool) (l : List ℕ) {s : σ × Bool} {s' : τ × Bool} (h : R s.1 s'.1) :
    R (l.foldl (spillTeamOn t view setOne e out incremental) s).1
      (l.foldl (spillTeamOn t view' setOne' e out incremental) s').1 := by
  induction l generalizing s s' with
  | nil => exact h
  | cons faction l ih =>
    refine ih ?_
    rw [spillTeamOn, spillTeamOn]
    cases ha : t.store.lookupEntry faction with
    | none => exact h
    | some a =>
      dsimp only
      rw [hview s.1 s'.1 h]
      split_ifs with hskip hzero
      · exact h
      · exact hone s.1 s'.1 a _ _ (lookupEntry_mem ha).1 (fun hid => hskip (.inl hid)) h
      · exact h

/-- What the changes of the other factions keep, the spillover to a team keeps. -/
theorem spillTeams_keeps {P : σ → Prop} {e : FactionEntry F}
    (hone : ∀ s a amount incremental, a ∈ t.store.entries → a.ID ≠ e.ID → P s →
      P (setOne s a amount incremental).1)
    (out : F) (incremental : Bool) (l : List ℕ) {s : σ × Bool} (h : P s.1) :
    P (l.foldl (spillTeamOn t view setOne e out incremental) s).1 := by
  have hrel : P (l.foldl (spillTeamOn t view setOne e out incremental) s).1 ∧
      (l.foldl (spillTeamOn t view setOne e out incremental) s).1 =
        (l.foldl (spillTeamOn t view setOne e out incremental) s).1 := by
    refine spillTeams_rel (R := fun s s' => P s ∧ s = s') (fun _ _ h => h.2 ▸ rfl) ?_ out
      incremental l ⟨h, rfl⟩
    rintro s _ a amount incremental ha hid ⟨hs, rfl⟩
    exact ⟨hone s a amount incremental ha hid hs, rfl⟩
  exact hrel.1

/-- Two states that single changes keep related stay related through the spillover. -/
theorem spillOn_rel {R : σ → τ → Prop} (hview : ∀ s s', R s s' → view s = view' s')
    (hone : ∀ s s' a amount incremental, a ∈ t.store.entries → R s s' →
      R (setOne s a amount incremental).1 (setOne' s' a amount incremental).1)
    (e : FactionEntry F) (standing : ℤ) (incremental : Bool) {s : σ} {s' : τ} (h : R s s') :
    R (spillOn t view setOne s e standing incremental).1
      (spillOn t view' setOne' s' e standing incremental).1 := by
  have hslot : ∀ template, ∀ (l : List (Fin 5)) s s', R s s' →
      R (l.foldl (spillSlotOn t view setOne template standing incremental) s)
        (l.foldl (spillSlotOn t view' setOne' template standing incremental) s') := by
    intro template l
    induction l with
    | nil => exact fun _ _ h => h
    | cons i l ih =>
      intro s s' h
      refine ih _ _ ?_
      rw [spillSlotOn, spillSlotOn, hview s s' h]
      split_ifs
      · cases ha : t.store.lookupEntry (template.faction i) with
        | none => exact h
        | some a => exact hone s s' a _ _ (lookupEntry_mem ha).1 h
      · exact h
  have hteam : ∀ out (l : List ℕ), R (l.foldl (spillTeamOn t view setOne e out incremental)
      (s, false)).1 (l.foldl (spillTeamOn t view' setOne' e out incremental) (s', false)).1 :=
    fun out l => spillTeams_rel hview (fun s s' a amount incremental ha _ =>
      hone s s' a amount incremental ha) out incremental l h
  rw [spillOn, spillOn]
  cases t.repSpillover e.ID with
  | some template => exact hslot template _ s s' h
  | none =>
    rw [spillDefaultOn, spillDefaultOn]
    cases t.factionTeamList e.ID with
    | some list => exact hteam _ list
    | none =>
      rw [hview s s' h]
      split_ifs
      · cases ha : t.store.lookupEntry e.team with
        | none => exact h
        | some a =>
          dsimp only
          split_ifs
          · exact hone s s' a _ _ (lookupEntry_mem ha).1 h
          · cases t.factionTeamList e.team with
            | none => exact h
            | some list => exact hteam _ list
      · exact h

/-- What single changes keep, the spillover keeps. -/
theorem spillOn_keeps {P : σ → Prop}
    (hone : ∀ s a amount incremental, a ∈ t.store.entries → P s →
      P (setOne s a amount incremental).1)
    (e : FactionEntry F) (standing : ℤ) (incremental : Bool) {s : σ} (h : P s) :
    P (spillOn t view setOne s e standing incremental).1 := by
  have hrel : P (spillOn t view setOne s e standing incremental).1 ∧
      (spillOn t view setOne s e standing incremental).1 =
        (spillOn t view setOne s e standing incremental).1 := by
    refine spillOn_rel (R := fun s s' => P s ∧ s = s') (fun _ _ h => h.2 ▸ rfl) ?_ e standing
      incremental ⟨h, rfl⟩
    rintro s _ a amount incremental ha ⟨hs, rfl⟩
    exact ⟨hone s a amount incremental ha hs, rfl⟩
  exact hrel.1

/-- What single changes keep, `SetReputation` keeps. -/
theorem setReputationOn_keeps {P : σ → Prop}
    (hone : ∀ s a amount incremental, a ∈ t.store.entries → P s →
      P (setOne s a amount incremental).1)
    {e : FactionEntry F} (he : e ∈ t.store.entries) (standing : ℤ) (incremental : Bool) {s : σ}
    (h : P s) : P (setReputationOn t view setOne s e standing incremental).1 := by
  rw [setReputationOn]
  have hspill : P (spillOn t view setOne s e (t.onReputationChange e.ID standing incremental)
      incremental).1 := spillOn_keeps hone e _ incremental h
  split
  · exact hone _ e _ _ he hspill
  · exact hspill

end Spillover

/-! ## The counters -/

/-- `_visibleFactionCount`, `_honoredFactionCount`, `_reveredFactionCount` and
`_exaltedFactionCount`. -/
structure Counters where
  visible : BitVec 8 := 0
  honored : BitVec 8 := 0
  revered : BitVec 8 := 0
  exalted : BitVec 8 := 0
  deriving DecidableEq

/-- `true` counts. -/
def one (b : Bool) : BitVec 8 :=
  if b then 1 else 0

namespace Counters

/-- `UpdateRankCounters`. -/
def updateRankCounters (c : Counters) (oldRank newRank : ℕ) : Counters where
  visible := c.visible
  honored := c.honored - one (repHonored ≤ oldRank) + one (repHonored ≤ newRank)
  revered := c.revered - one (repRevered ≤ oldRank) + one (repRevered ≤ newRank)
  exalted := c.exalted - one (repExalted ≤ oldRank) + one (repExalted ≤ newRank)

/-- `SetVisible` of the state. -/
def setVisible (c : Counters) (f : FactionState) : Counters :=
  if hasFlag f.flags (factionFlagInvisibleForced ||| factionFlagHidden) &&
      !hasFlag f.flags factionFlagSpecial then c
  else if hasFlag f.flags factionFlagVisible then c
  else { c with visible := c.visible + 1 }

end Counters

/-- The manager with its counters. `changed` are the list ids of the factions whose standing the
last request changed. -/
structure Account where
  mgr : ReputationMgr := {}
  counters : Counters := {}
  changed : List ℕ := []

namespace Account

variable (t : Rules F)

/-- `GetBaseRank`. -/
def getBaseRank (e : FactionEntry F) : ℕ :=
  reputationToRank (toI32 (t.getBaseReputation e))

/-- The standing that `SetOneFactionReputation` gives, with the base reputation. -/
def newStanding (e : FactionEntry F) (f : FactionState) (standing : ℤ) (incremental : Bool) : ℤ :=
  let standing :=
    if incremental then toI32 (t.gain standing + toI32 (f.standing + t.getBaseReputation e))
    else standing
  if reputationCap < standing then reputationCap
  else if standing < reputationBottom then reputationBottom
  else standing

/-- `SetOneFactionReputation`. -/
def setOneFactionReputation (s : Account) (e : FactionEntry F) (standing : ℤ)
    (incremental : Bool) : Account × Bool :=
  match s.mgr.getState e with
  | none => (s, false)
  | some f =>
    let oldRank := reputationToRank (toI32 (f.standing + t.getBaseReputation e))
    let newRank := reputationToRank (newStanding t e f standing incremental)
    ({ mgr := (s.mgr.setOneFactionReputation t e standing incremental).1
       counters := (s.counters.setVisible f).updateRankCounters oldRank newRank
       changed := e.reputationListID.toNat :: s.changed }, true)

/-- `SetReputation`. -/
def setReputation (s : Account) (e : FactionEntry F) (standing : ℤ) (incremental : Bool) :
    Account × Bool :=
  setReputationOn t mgr (setOneFactionReputation t) s e standing incremental

/-- `SetVisible` of a faction. -/
def setVisible (s : Account) (e : FactionEntry F) : Account :=
  match s.mgr.getState e with
  | none => s
  | some f => { s with mgr := s.mgr.setVisible e, counters := s.counters.setVisible f }

/-- `SetVisible` of the faction of a faction template. -/
def setVisibleTemplate (s : Account) (faction : ℕ) : Account :=
  if faction = 0 then s
  else
    match t.store.lookupEntry faction with
    | none => s
    | some e =>
      if ReputationMgr.ofOpposingTeam t e then s
      else s.setVisible e

/-- The body of the loop of `Initialize`. -/
def initFaction (s : Account) (e : FactionEntry F) : Account :=
  if 0 ≤ e.reputationListID then
    let counters :=
      if hasFlag (t.getDefaultStateFlags e) factionFlagVisible then
        { s.counters with visible := s.counters.visible + 1 }
      else s.counters
    { s with
      mgr := ReputationMgr.initFaction t s.mgr e
      counters := counters.updateRankCounters repHostile (getBaseRank t e) }
  else s

/-- The body of the loop of `LoadFromDB`. -/
def loadRow (s : Account) (row : Row) : Account :=
  match t.store.lookupEntry row.faction with
  | none => s
  | some e =>
    if 0 ≤ e.reputationListID then
      let f := (s.mgr.getState e).getD {}
      let counters := s.counters.updateRankCounters (getBaseRank t e)
        (reputationToRank (toI32 (t.getBaseReputation e + row.standing)))
      { s with
        mgr := ReputationMgr.loadRow t s.mgr row
        counters :=
          if hasFlag (BitVec.ofNat 8 row.flags) factionFlagVisible then counters.setVisible f
          else counters }
    else s

/-- `LoadFromDB`. -/
def loadFromDB (rows : List Row) : Account :=
  rows.foldl (loadRow t) (t.store.entries.foldl (initFaction t) {})

/-- One request. `changed` is what it changes. -/
def serve (s : Account) : Request → Account
  | .setReputation faction standing incremental =>
    match t.store.lookupEntry faction with
    | none => { s with changed := [] }
    | some e => (({ s with changed := [] } : Account).setReputation t e standing incremental).1
  | .setVisible faction =>
    match t.store.lookupEntry faction with
    | none => { s with changed := [] }
    | some e => ({ s with changed := [] } : Account).setVisible e
  | .setVisibleTemplate faction => ({ s with changed := [] } : Account).setVisibleTemplate t faction
  | .setAtWar repListID on => { s with mgr := s.mgr.setAtWar repListID on, changed := [] }
  | .setInactive repListID on => { s with mgr := s.mgr.setInactive repListID on, changed := [] }
  | .saveToDB => { s with mgr := (s.mgr.saveToDB t []).1, changed := [] }

end Account

/-! ## Counting -/

variable {t : Rules F} {m m' : ReputationMgr} {e a : FactionEntry F} {f : FactionState}
  {s : Account}

/-- `sFactionStore` restricted to the reputation list. -/
def listed (t : Rules F) : List (FactionEntry F) :=
  t.store.entries.filter fun e => 0 ≤ e.reputationListID

theorem mem_listed : e ∈ listed t ↔ ReputationMgr.Listed t e := by
  simp [listed, ReputationMgr.Listed]

theorem nodup_listed : (listed t).Nodup :=
  (List.Nodup.of_map _ t.store.ids_nodup).filter _

/-- How many factions have a state with `p`. -/
def countStates (t : Rules F) (m : ReputationMgr) (p : FactionEntry F → FactionState → Bool) : ℕ :=
  (listed t).countP fun e => (m.getState e).any (p e)

/-- The counter is right. -/
def Counts (t : Rules F) (m : ReputationMgr) (n : BitVec 8)
    (p : FactionEntry F → FactionState → Bool) : Prop :=
  n = BitVec.ofNat 8 (countStates t m p)

theorem countP_change {α : Type*} {l : List α} (hl : l.Nodup) {a : α} (ha : a ∈ l) {p q : α → Bool}
    (h : ∀ x ∈ l, x ≠ a → q x = p x) :
    l.countP q + (if p a then 1 else 0) = l.countP p + if q a then 1 else 0 := by
  obtain ⟨l1, l2, rfl⟩ := append_of_mem ha
  have hne : ∀ x ∈ l1 ++ l2, x ≠ a := by
    rintro x hx rfl
    exact (nodup_middle.1 hl).notMem hx
  have h1 : l1.countP q = l1.countP p := countP_congr fun x hx => by
    rw [h x (by simp [hx]) (hne x (by simp [hx]))]
  have h2 : l2.countP q = l2.countP p := countP_congr fun x hx => by
    rw [h x (by simp [hx]) (hne x (by simp [hx]))]
  simp only [countP_append, countP_cons, h1, h2]
  omega

/-- A counter that follows the change of a state stays right. -/
theorem Counts.setState {n n' : BitVec 8} {p : FactionEntry F → FactionState → Bool}
    (h : Counts t m n p) (he : ReputationMgr.Listed t e)
    (hn : n' + one ((m.getState e).any (p e)) = n + one (p e f)) :
    Counts t (m.setState e.reputationListID.toNat f) n' p := by
  have hself : (m.setState e.reputationListID.toNat f).getState e = some f := by
    rw [getState_listed he, setState_self]
  have hcount := countP_change nodup_listed (mem_listed.2 he)
    (p := fun e => (m.getState e).any (p e))
    (q := fun a => ((m.setState e.reputationListID.toNat f).getState a).any (p a))
    fun a ha hne => by
      have ha' := mem_listed.1 ha
      rw [getState_listed ha', getState_listed ha',
        setState_of_ne m fun hid => hne (ha'.eq he hid)]
  simp only [hself, any_some] at hcount
  have hbits := congrArg (BitVec.ofNat 8) hcount
  rw [BitVec.ofNat_add, BitVec.ofNat_add] at hbits
  have hone : ∀ b : Bool, BitVec.ofNat 8 (if b = true then 1 else 0) = one b := by
    intro b
    cases b <;> rfl
  rw [hone, hone] at hbits
  rw [h] at hn
  exact add_right_cancel (hn.trans hbits.symm)

/-- The rank with a state. -/
def stateRank (t : Rules F) (e : FactionEntry F) (f : FactionState) : ℕ :=
  reputationToRank (toI32 (t.getBaseReputation e + f.standing))

/-- A counter takes an old state out and a new one in. -/
def Follows (p : FactionState → Bool) (old : Option FactionState) (new : FactionState)
    (n n' : BitVec 8) : Prop :=
  n' + one (old.any p) = n + one (p new)

/-- The counters follow the change of a state of `e`. -/
structure Counters.Follow (t : Rules F) (e : FactionEntry F) (old : Option FactionState)
    (new : FactionState) (c c' : Counters) : Prop where
  visible : Follows (fun f => hasFlag f.flags factionFlagVisible) old new c.visible c'.visible
  honored : Follows (fun f => repHonored ≤ stateRank t e f) old new c.honored c'.honored
  revered : Follows (fun f => repRevered ≤ stateRank t e f) old new c.revered c'.revered
  exalted : Follows (fun f => repExalted ≤ stateRank t e f) old new c.exalted c'.exalted

/-- The counters are right. -/
structure Right (t : Rules F) (s : Account) : Prop where
  visible : Counts t s.mgr s.counters.visible fun _ f => hasFlag f.flags factionFlagVisible
  honored : Counts t s.mgr s.counters.honored fun e f => repHonored ≤ stateRank t e f
  revered : Counts t s.mgr s.counters.revered fun e f => repRevered ≤ stateRank t e f
  exalted : Counts t s.mgr s.counters.exalted fun e f => repExalted ≤ stateRank t e f

theorem Right.setState (h : Right t s) (he : ReputationMgr.Listed t e) {c : Counters}
    (hc : s.counters.Follow t e (s.mgr.getState e) f c) (changed : List ℕ) :
    Right t ⟨s.mgr.setState e.reputationListID.toNat f, c, changed⟩ where
  visible := h.visible.setState he hc.visible
  honored := h.honored.setState he hc.honored
  revered := h.revered.setState he hc.revered
  exalted := h.exalted.setState he hc.exalted

theorem sub_one_add_one (n : BitVec 8) (a b : Bool) : n - one a + one b + one a = n + one b := by
  rw [add_right_comm, sub_add_cancel]

/-- `SetVisible` counts a state that was not visible. -/
theorem Counters.setVisible_follows (c : Counters) (f : FactionState) :
    (c.setVisible f).visible + one (hasFlag f.flags factionFlagVisible) =
      c.visible + one (hasFlag f.setVisible.flags factionFlagVisible) := by
  rw [hasFlag_visible, hasFlag_visible, getLsbD_setVisible, if_pos rfl, Counters.setVisible,
    hasFlag_hidden, hasFlag_special, hasFlag_visible]
  cases f.flags.getLsbD 0 <;> cases f.flags.getLsbD 2 <;> cases f.flags.getLsbD 3 <;>
    cases f.flags.getLsbD 7 <;> simp [one]

/-- The counters of `SetVisible` and `UpdateRankCounters`, one after the other. -/
theorem Counters.follow (c : Counters) {f' : FactionState}
    (hvisible : hasFlag f'.flags factionFlagVisible =
      hasFlag f.setVisible.flags factionFlagVisible) :
    c.Follow t e (some f) f'
      ((c.setVisible f).updateRankCounters (stateRank t e f) (stateRank t e f')) := by
  have hranks : (c.setVisible f).honored = c.honored ∧ (c.setVisible f).revered = c.revered ∧
      (c.setVisible f).exalted = c.exalted := by
    unfold Counters.setVisible
    split_ifs <;> exact ⟨rfl, rfl, rfl⟩
  refine ⟨?_, ?_, ?_, ?_⟩
  · exact (c.setVisible_follows f).trans (by simp only [hvisible])
  · exact (sub_one_add_one _ _ _).trans (by rw [hranks.1])
  · exact (sub_one_add_one _ _ _).trans (by rw [hranks.2.1])
  · exact (sub_one_add_one _ _ _).trans (by rw [hranks.2.2])

theorem Counters.updateRankCounters_self (c : Counters) (rank : ℕ) :
    c.updateRankCounters rank rank = c := by
  simp [Counters.updateRankCounters]

/-! ## Single changes -/

open Account

theorem ReputationMgr.Listed.of_getState (he : e ∈ t.store.entries) (hf : m.getState e = some f) :
    ReputationMgr.Listed t e := by
  refine ⟨he, not_lt.1 fun hneg => ?_⟩
  rw [getState, if_neg (not_le.2 hneg)] at hf
  cases hf

section

variable (t : Rules F)

theorem newStanding_bounds (e : FactionEntry F) (f : FactionState) (standing : ℤ)
    (incremental : Bool) :
    reputationBottom ≤ newStanding t e f standing incremental ∧
      newStanding t e f standing incremental ≤ reputationCap :=
  clamp_bounds _

theorem changedState_eq (e : FactionEntry F) (f : FactionState) (standing : ℤ) (incremental : Bool) :
    changedState t e f standing incremental =
      let new := newStanding t e f standing incremental
      let g := { f with
        standing := toI32 (new - t.getBaseReputation e), needSave := true }.setVisible
      if reputationToRank new ≤ repHostile then g.setAtWar true else g :=
  rfl

/-- A change gives the new standing. -/
theorem changedState_standing (e : FactionEntry F) (f : FactionState) (standing : ℤ)
    (incremental : Bool) :
    toI32 (t.getBaseReputation e + (changedState t e f standing incremental).standing) =
      newStanding t e f standing incremental := by
  obtain ⟨hlow, hcap⟩ := newStanding_bounds t e f standing incremental
  have hstanding : (changedState t e f standing incremental).standing =
      toI32 (newStanding t e f standing incremental - t.getBaseReputation e) := by
    rw [changedState_eq]
    dsimp only
    split
    · rw [(same_setAtWar _ true).standing, (same_setVisible _).standing]
    · rw [(same_setVisible _).standing]
  rw [hstanding, toI32_add_sub _ hlow hcap]

theorem stateRank_changedState (e : FactionEntry F) (f : FactionState) (standing : ℤ)
    (incremental : Bool) : stateRank t e (changedState t e f standing incremental) =
      reputationToRank (newStanding t e f standing incremental) := by
  rw [stateRank, changedState_standing]

/-- The flags of a changed state : those of `SetVisible`, and at war where that is possible and the
rank asks for it. -/
theorem changedState_flags (e : FactionEntry F) (f : FactionState) (standing : ℤ)
    (incremental : Bool) (i : ℕ) :
    (changedState t e f standing incremental).flags.getLsbD i =
      if i = 1 then
        f.flags.getLsbD 1 ||
          (stateRank t e (changedState t e f standing incremental) ≤ repHostile) &&
            !f.flags.getLsbD 4
      else f.setVisible.flags.getLsbD i := by
  rw [stateRank_changedState]
  have hflags : ∀ x b, ({ f with standing := x, needSave := b } : FactionState).setVisible.flags =
      f.setVisible.flags := by
    intro x b
    unfold FactionState.setVisible
    split_ifs <;> rfl
  have hkeep : ∀ j ≠ 0, f.setVisible.flags.getLsbD j = f.flags.getLsbD j := by
    intro j hj
    rw [getLsbD_setVisible, if_neg hj]
  rw [changedState_eq]
  by_cases hrank : reputationToRank (newStanding t e f standing incremental) ≤ repHostile
  · rw [if_pos hrank, getLsbD_setAtWar, hflags, hkeep 1 (by decide), hkeep 4 (by decide),
      decide_eq_true hrank, Bool.true_and, Bool.true_and]
  · rw [if_neg hrank, hflags, decide_eq_false hrank, Bool.false_and, Bool.or_false]
    split_ifs with hi
    · rw [hi, hkeep 1 (by decide)]
    · rfl

theorem Account.mgr_setOneFactionReputation (s : Account) (e : FactionEntry F) (standing : ℤ)
    (incremental : Bool) :
    (s.setOneFactionReputation t e standing incremental).1.mgr =
      (s.mgr.setOneFactionReputation t e standing incremental).1 := by
  unfold Account.setOneFactionReputation ReputationMgr.setOneFactionReputation
  cases s.mgr.getState e <;> rfl

/-- The manager with counters goes through the same changes as the one without. -/
theorem Account.mgr_setReputation (s : Account) (e : FactionEntry F) (standing : ℤ)
    (incremental : Bool) :
    (s.setReputation t e standing incremental).1.mgr =
      (s.mgr.setReputation t e standing incremental).1 := by
  have hone : ∀ (s : Account) (m : ReputationMgr) a amount incremental,
      a ∈ t.store.entries → s.mgr = m → (s.setOneFactionReputation t a amount incremental).1.mgr =
        (m.setOneFactionReputation t a amount incremental).1 := by
    rintro s _ a amount incremental - rfl
    exact s.mgr_setOneFactionReputation t a amount incremental
  have hspill : (spillOn t Account.mgr (Account.setOneFactionReputation t) s e
      (t.onReputationChange e.ID standing incremental) incremental).1.mgr =
      (spillOn t id (ReputationMgr.setOneFactionReputation t) s.mgr e
        (t.onReputationChange e.ID standing incremental) incremental).1 :=
    spillOn_rel (R := fun (s : Account) m => s.mgr = m) (fun _ _ h => h) hone e _ incremental rfl
  rw [setReputation_eq, Account.setReputation, setReputationOn, setReputationOn]
  dsimp only [id]
  rw [hspill]
  split
  · rw [mgr_setOneFactionReputation, hspill]
  · exact hspill

end

/-- A single change leaves the other factions, and gives the faction its new state. -/
theorem Account.setOneFactionReputation_some (hf : s.mgr.getState e = some f) (standing : ℤ)
    (incremental : Bool) :
    (s.setOneFactionReputation t e standing incremental).1 =
      ⟨s.mgr.setState e.reputationListID.toNat (changedState t e f standing incremental),
        (s.counters.setVisible f).updateRankCounters (stateRank t e f)
          (stateRank t e (changedState t e f standing incremental)),
        e.reputationListID.toNat :: s.changed⟩ := by
  rw [stateRank_changedState, stateRank, add_comm]
  unfold Account.setOneFactionReputation ReputationMgr.setOneFactionReputation
  rw [hf]

theorem Right.setOneFactionReputation (h : Right t s) (he : e ∈ t.store.entries) (standing : ℤ)
    (incremental : Bool) : Right t (s.setOneFactionReputation t e standing incremental).1 := by
  cases hf : s.mgr.getState e with
  | none =>
    unfold Account.setOneFactionReputation
    rw [hf]
    exact h
  | some f =>
    rw [setOneFactionReputation_some hf]
    refine h.setState (.of_getState he hf) ?_ _
    rw [hf]
    refine s.counters.follow ?_
    rw [hasFlag_visible, hasFlag_visible, changedState_flags, if_neg (by decide)]

theorem Right.setReputation (h : Right t s) (he : e ∈ t.store.entries) (standing : ℤ)
    (incremental : Bool) : Right t (s.setReputation t e standing incremental).1 := by
  refine setReputationOn_keeps (P := Right t) ?_ he standing incremental h
  exact fun _ _ amount incremental ha hs => hs.setOneFactionReputation ha amount incremental

/-! ## The other setters -/

/-- What the counters see of a state. -/
def counted (f : FactionState) : ℤ × Bool :=
  (f.standing, hasFlag f.flags factionFlagVisible)

theorem countStates_congr {p : FactionEntry F → FactionState → Bool}
    (hp : ∀ e f f', counted f = counted f' → p e f = p e f')
    (h : ∀ e, ReputationMgr.Listed t e → (m'.getState e).map counted = (m.getState e).map counted) :
    countStates t m' p = countStates t m p := by
  have hany : ∀ e (o o' : Option FactionState), o'.map counted = o.map counted →
      o'.any (p e) = o.any (p e) := by
    rintro e (_ | f) (_ | f') hff'
    · rfl
    · cases hff'
    · cases hff'
    · exact hp e f' f (some.inj hff')
  exact countP_congr fun e he => by rw [hany e _ _ (h e (mem_listed.1 he))]

/-- The counters stay right when standings and visible flags do not change. -/
theorem Right.of_counted (h : Right t s) (hm : ∀ e, ReputationMgr.Listed t e →
      (m'.getState e).map counted = (s.mgr.getState e).map counted) (changed : List ℕ) :
    Right t ⟨m', s.counters, changed⟩ := by
  have hvisible : ∀ f f' : FactionState, counted f = counted f' →
      hasFlag f.flags factionFlagVisible = hasFlag f'.flags factionFlagVisible :=
    fun f f' hff' => congrArg Prod.snd hff'
  have hrank : ∀ (e : FactionEntry F) (f f' : FactionState), counted f = counted f' →
      stateRank t e f = stateRank t e f' := by
    intro e f f' hff'
    have hstanding : f.standing = f'.standing := congrArg Prod.fst hff'
    rw [stateRank, stateRank, hstanding]
  have hranks : ∀ r : ℕ, ∀ (e : FactionEntry F) (f f' : FactionState), counted f = counted f' →
      decide (r ≤ stateRank t e f) = decide (r ≤ stateRank t e f') := by
    intro r e f f' hff'
    rw [hrank e f f' hff']
  refine ⟨?_, ?_, ?_, ?_⟩
  · exact h.visible.trans (congrArg _ (countStates_congr (fun _ => hvisible) hm).symm)
  · exact h.honored.trans (congrArg _ (countStates_congr (hranks _) hm).symm)
  · exact h.revered.trans (congrArg _ (countStates_congr (hranks _) hm).symm)
  · exact h.exalted.trans (congrArg _ (countStates_congr (hranks _) hm).symm)

/-- Putting a state in changes one faction. -/
theorem counted_setState {id : ℕ} {f' : FactionState} (hf : m.factions id = some f)
    (h : counted f' = counted f) (he : ReputationMgr.Listed t e) :
    ((m.setState id f').getState e).map counted = (m.getState e).map counted := by
  rw [getState_listed he, getState_listed he]
  by_cases hid : e.reputationListID.toNat = id
  · rw [hid, setState_self, hf, map_some, map_some, h]
  · rw [setState_of_ne m hid]

theorem counted_setAtWar (f : FactionState) (on : Bool) : counted (f.setAtWar on) = counted f := by
  rw [counted, counted, (same_setAtWar f on).standing, hasFlag_visible, hasFlag_visible,
    getLsbD_setAtWar, if_neg (by decide)]

theorem counted_setInactive (f : FactionState) (on : Bool) :
    counted (f.setInactive on) = counted f := by
  rw [counted, counted, (same_setInactive f on).standing, hasFlag_visible, hasFlag_visible,
    getLsbD_setInactive, if_neg (by decide)]

theorem counted_mgr_setAtWar (m : ReputationMgr) (id : ℕ) (on : Bool)
    (he : ReputationMgr.Listed t e) :
    ((m.setAtWar id on).getState e).map counted = (m.getState e).map counted := by
  unfold ReputationMgr.setAtWar
  split
  · rfl
  · rename_i f hf
    split
    · rfl
    · exact counted_setState hf (counted_setAtWar f on) he

theorem counted_mgr_setInactive (m : ReputationMgr) (id : ℕ) (on : Bool)
    (he : ReputationMgr.Listed t e) :
    ((m.setInactive id on).getState e).map counted = (m.getState e).map counted := by
  unfold ReputationMgr.setInactive
  split
  · rfl
  · rename_i f hf
    exact counted_setState hf (counted_setInactive f on) he

theorem counted_saveToDB (m : ReputationMgr) (rows : List Row) (he : ReputationMgr.Listed t e) :
    ((m.saveToDB t rows).1.getState e).map counted = (m.getState e).map counted := by
  rw [getState_listed he, getState_listed he, saveToDB]
  rw [Option.map_map]
  rfl

theorem Account.setVisible_some (hf : s.mgr.getState e = some f) :
    s.setVisible e = ⟨s.mgr.setState e.reputationListID.toNat f.setVisible,
      s.counters.setVisible f, s.changed⟩ := by
  unfold Account.setVisible ReputationMgr.setVisible
  rw [hf]

theorem stateRank_setVisible (t : Rules F) (e : FactionEntry F) (f : FactionState) :
    stateRank t e f.setVisible = stateRank t e f := by
  rw [stateRank, stateRank, f.same_setVisible.standing]

theorem Right.setVisible (h : Right t s) (he : e ∈ t.store.entries) : Right t (s.setVisible e) := by
  cases hf : s.mgr.getState e with
  | none =>
    unfold Account.setVisible
    rw [hf]
    exact h
  | some f =>
    rw [setVisible_some hf]
    refine h.setState (.of_getState he hf) ?_ _
    have hfollow : s.counters.Follow t e (some f) f.setVisible
        ((s.counters.setVisible f).updateRankCounters (stateRank t e f)
          (stateRank t e f.setVisible)) := s.counters.follow rfl
    rwa [stateRank_setVisible, Counters.updateRankCounters_self, ← hf] at hfollow

theorem Right.setVisibleTemplate (h : Right t s) (faction : ℕ) :
    Right t (s.setVisibleTemplate t faction) := by
  rw [Account.setVisibleTemplate]
  split
  · exact h
  · split
    · exact h
    · rename_i a ha
      split
      · exact h
      · exact h.setVisible (lookupEntry_mem ha).1

/-- Every request keeps the counters right. -/
theorem Right.serve (h : Right t s) (r : Request) : Right t (s.serve t r) := by
  have hcleared : Right t { s with changed := [] } := h.of_counted (fun _ _ => rfl) []
  cases r with
  | setReputation faction standing incremental =>
    rw [Account.serve]
    split
    · exact hcleared
    · rename_i a ha
      exact hcleared.setReputation (lookupEntry_mem ha).1 standing incremental
  | setVisible faction =>
    rw [Account.serve]
    split
    · exact hcleared
    · rename_i a ha
      exact hcleared.setVisible (lookupEntry_mem ha).1
  | setVisibleTemplate faction => exact hcleared.setVisibleTemplate faction
  | setAtWar id on => exact h.of_counted (fun _ => counted_mgr_setAtWar s.mgr id on) []
  | setInactive id on => exact h.of_counted (fun _ => counted_mgr_setInactive s.mgr id on) []
  | saveToDB => exact h.of_counted (fun _ => counted_saveToDB s.mgr []) []

/-! ## Loading -/

theorem add_one_rank (n : BitVec 8) {old : ℕ} (new : ℕ) {r : ℕ} (h : old < r) :
    n - one (r ≤ old) + one (r ≤ new) = n + one (r ≤ new) := by
  rw [decide_eq_false (not_le.2 h), one, if_neg Bool.false_ne_true, sub_zero]

theorem stateRank_newFaction (t : Rules F) (e : FactionEntry F) :
    stateRank t e (newFaction t e) = getBaseRank t e := by
  rw [stateRank, newFaction, add_zero, getBaseRank]

theorem Right.initFaction (h : Right t s) (he : e ∈ t.store.entries)
    (hnone : s.mgr.getState e = none) : Right t (s.initFaction t e) := by
  rw [Account.initFaction]
  by_cases hid : 0 ≤ e.reputationListID
  swap
  · rw [if_neg hid]
    exact h
  rw [if_pos hid, ReputationMgr.initFaction, if_pos hid]
  refine h.setState ⟨he, hid⟩ ?_ _
  rw [hnone]
  generalize hc : (if hasFlag (t.getDefaultStateFlags e) factionFlagVisible = true then
    { s.counters with visible := s.counters.visible + 1 } else s.counters : Counters) = c
  have hranks : c.honored = s.counters.honored ∧ c.revered = s.counters.revered ∧
      c.exalted = s.counters.exalted := by
    rw [← hc]
    split_ifs <;> exact ⟨rfl, rfl, rfl⟩
  have hvisible : c.visible =
      s.counters.visible + one (hasFlag (t.getDefaultStateFlags e) factionFlagVisible) := by
    rw [← hc]
    split_ifs with hflag
    · rw [hflag]
      rfl
    · rw [Bool.not_eq_true] at hflag
      rw [hflag]
      exact (add_zero _).symm
  refine ⟨?_, ?_, ?_, ?_⟩
  · exact (add_zero _).trans hvisible
  · rw [Follows, stateRank_newFaction]
    exact (add_zero _).trans ((add_one_rank _ _ (by decide)).trans (by rw [hranks.1]))
  · rw [Follows, stateRank_newFaction]
    exact (add_zero _).trans ((add_one_rank _ _ (by decide)).trans (by rw [hranks.2.1]))
  · rw [Follows, stateRank_newFaction]
    exact (add_zero _).trans ((add_one_rank _ _ (by decide)).trans (by rw [hranks.2.2]))

theorem Account.mgr_initFaction (s : Account) (e : FactionEntry F) :
    (s.initFaction t e).mgr = ReputationMgr.initFaction t s.mgr e := by
  unfold Account.initFaction ReputationMgr.initFaction
  split_ifs <;> rfl

theorem right_foldl_initFaction : ∀ (l : List (FactionEntry F)) (s : Account), l.Nodup →
    (∀ e ∈ l, e ∈ t.store.entries) → (∀ e ∈ l, s.mgr.getState e = none) → Right t s →
      Right t (l.foldl (Account.initFaction t) s)
  | [], _, _, _, _, h => h
  | e :: l, s, hnodup, hl, hnone, h => by
    obtain ⟨hnotMem, hnodup⟩ := nodup_cons.1 hnodup
    refine right_foldl_initFaction l _ hnodup (fun a ha => hl a (mem_cons_of_mem e ha))
      (fun a ha => ?_) (h.initFaction (hl e mem_cons_self) (hnone e mem_cons_self))
    have hold := hnone a (mem_cons_of_mem e ha)
    rw [mgr_initFaction, ReputationMgr.initFaction]
    split_ifs with hid
    · by_cases hid' : 0 ≤ a.reputationListID
      · have hlisted : ReputationMgr.Listed t a := ⟨hl a (mem_cons_of_mem e ha), hid'⟩
        rw [getState_listed hlisted] at hold ⊢
        rw [setState_of_ne, hold]
        exact fun heq => hnotMem (hlisted.eq ⟨hl e mem_cons_self, hid⟩ heq ▸ ha)
      · exact if_neg hid'
    · exact hold

theorem Account.mgr_foldl_initFaction (l : List (FactionEntry F)) (s : Account) :
    (l.foldl (Account.initFaction t) s).mgr = l.foldl (ReputationMgr.initFaction t) s.mgr := by
  induction l generalizing s with
  | nil => rfl
  | cons e l ih => rw [foldl_cons, foldl_cons, ih, mgr_initFaction]

theorem Right.loadRow (h : Right t s) {row : Row}
    (hzero : ∀ e, ReputationMgr.Listed t e → e.ID = row.faction →
      ∃ f, s.mgr.getState e = some f ∧ f.standing = 0) : Right t (s.loadRow t row) := by
  rw [Account.loadRow]
  cases he : t.store.lookupEntry row.faction with
  | none => exact h
  | some e =>
    dsimp only
    by_cases hid : 0 ≤ e.reputationListID
    swap
    · rw [if_neg hid]
      exact h
    rw [if_pos hid]
    obtain ⟨hmem, hID⟩ := lookupEntry_mem he
    obtain ⟨f, hf, hstanding⟩ := hzero e ⟨hmem, hid⟩ hID
    rw [ReputationMgr.loadRow, he]
    dsimp only
    rw [if_pos hid, hf, getD_some]
    refine h.setState ⟨hmem, hid⟩ ?_ _
    obtain ⟨-, hloaded, hflags, -⟩ := loadedState_cases t e f row
    have hold : getBaseRank t e = stateRank t e f := by rw [getBaseRank, stateRank, hstanding,
      add_zero]
    have hnew : reputationToRank (toI32 (t.getBaseReputation e + row.standing)) =
        stateRank t e (loadedState t e f row) := by rw [stateRank, hloaded]
    rw [hf, hold, hnew]
    generalize loadedState t e f row = f' at hflags ⊢
    have hvis := hflags.visible
    rw [← hasFlag_visible, ← hasFlag_visible (BitVec.ofNat 8 row.flags)] at hvis
    split_ifs with hdb
    · have hcomm : (s.counters.updateRankCounters (stateRank t e f) (stateRank t e f')).setVisible f =
          (s.counters.setVisible f).updateRankCounters (stateRank t e f) (stateRank t e f') := by
        unfold Counters.setVisible
        split_ifs <;> rfl
      rw [hcomm]
      refine s.counters.follow ?_
      rw [hvis, hdb, Bool.true_and, hasFlag_visible, getLsbD_setVisible, if_pos rfl,
        Bool.or_assoc]
    · rw [Bool.not_eq_true] at hdb
      rw [hdb, Bool.false_and, Bool.or_false, ← hasFlag_visible] at hvis
      refine ⟨?_, sub_one_add_one _ _ _, sub_one_add_one _ _ _, sub_one_add_one _ _ _⟩
      unfold Follows
      simp only [any_some, hvis]
      rfl

theorem Account.mgr_loadRow (s : Account) (row : Row) :
    (s.loadRow t row).mgr = ReputationMgr.loadRow t s.mgr row := by
  unfold Account.loadRow ReputationMgr.loadRow
  cases t.store.lookupEntry row.faction with
  | none => rfl
  | some e =>
    dsimp only
    split_ifs <;> rfl

theorem right_foldl_loadRow : ∀ (rows : List Row) (s : Account), (rows.map Row.faction).Nodup →
    (∀ row ∈ rows, ∀ e, ReputationMgr.Listed t e → e.ID = row.faction →
      ∃ f, s.mgr.getState e = some f ∧ f.standing = 0) → Right t s →
      Right t (rows.foldl (Account.loadRow t) s)
  | [], _, _, _, h => h
  | row :: rows, s, hnodup, hzero, h => by
    obtain ⟨hnotMem, hnodup⟩ := nodup_cons.1 hnodup
    refine right_foldl_loadRow rows _ hnodup (fun r hr e he hID => ?_)
      (h.loadRow (hzero row mem_cons_self))
    obtain ⟨f, hf, hstanding⟩ := hzero r (mem_cons_of_mem row hr) e he hID
    refine ⟨f, ?_, hstanding⟩
    rw [getState_listed he] at hf ⊢
    rw [mgr_loadRow, loadRow_other, hf]
    intro a ha haID heq
    refine hnotMem ?_
    rw [← haID, ha.eq he heq, hID]
    exact mem_map_of_mem hr

/-- The counters are right after loading. -/
theorem right_loadFromDB (t : Rules F) {rows : List Row} (hrows : (rows.map Row.faction).Nodup) :
    Right t (Account.loadFromDB t rows) := by
  have hempty : Right t ({} : Account) := by
    have hcount : ∀ p, countStates t ({} : Account).mgr p = 0 := fun p => by
      refine countP_eq_zero.2 fun e _ => ?_
      rw [getState]
      split_ifs <;> exact Bool.false_ne_true
    refine ⟨?_, ?_, ?_, ?_⟩ <;> exact congrArg (BitVec.ofNat 8) (hcount _).symm
  have hinit := right_foldl_initFaction t.store.entries {} (List.Nodup.of_map _ t.store.ids_nodup)
    (fun _ he => he) (fun e _ => by
      rw [getState]
      split_ifs <;> rfl) hempty
  refine right_foldl_loadRow rows _ hrows (fun row _ e he _ => ⟨newFaction t e, ?_, rfl⟩) hinit
  rw [mgr_foldl_initFaction, getState_listed he]
  exact initFactions_listed he

/-- Loading the manager with its counters loads the manager. -/
theorem Account.mgr_loadFromDB (t : Rules F) (rows : List Row) :
    (Account.loadFromDB t rows).mgr = ReputationMgr.loadFromDB t rows := by
  have hrows : ∀ s : Account, (rows.foldl (Account.loadRow t) s).mgr =
      rows.foldl (ReputationMgr.loadRow t) s.mgr := by
    intro s
    induction rows generalizing s with
    | nil => rfl
    | cons row rows ih => rw [foldl_cons, foldl_cons, ih, mgr_loadRow]
  rw [Account.loadFromDB, hrows, mgr_foldl_initFaction]
  rfl

/-! ## What a change does -/

/-- The reputation with the faction is within the bounds. -/
def Bounded (t : Rules F) (m : ReputationMgr) (e : FactionEntry F) : Prop :=
  reputationBottom ≤ m.getReputation t e ∧ m.getReputation t e ≤ reputationCap

/-- A hostile faction that is not kept at peace is at war. -/
def AtWarIfHostile (t : Rules F) (m : ReputationMgr) (e : FactionEntry F) : Prop :=
  m.getRank t e ≤ repHostile → ∀ f, m.getState e = some f →
    hasFlag f.flags factionFlagPeaceForced = false → hasFlag f.flags factionFlagAtWar = true

theorem getReputation_some (hf : m.getState e = some f) :
    m.getReputation t e = toI32 (t.getBaseReputation e + f.standing) := by
  rw [getReputation, hf]

theorem getReputation_congr (h : (m'.getState e).map counted = (m.getState e).map counted) :
    m'.getReputation t e = m.getReputation t e := by
  unfold getReputation
  cases hf : m.getState e <;> cases hf' : m'.getState e <;> rw [hf, hf'] at h
  · cases h
  · cases h
  · rename_i f f'
    have hstanding : f'.standing = f.standing := congrArg Prod.fst (some.inj h)
    simp only [hstanding]

theorem Bounded.of_counted (h : Bounded t m e)
    (hm : (m'.getState e).map counted = (m.getState e).map counted) : Bounded t m' e := by
  rwa [Bounded, getReputation_congr hm]

/-- The states of the other factions are left. -/
theorem Account.getState_setOneFactionReputation (ha : a ∈ t.store.entries)
    (he : ReputationMgr.Listed t e) (hne : a ≠ e) (standing : ℤ) (incremental : Bool) :
    (s.setOneFactionReputation t a standing incremental).1.mgr.getState e = s.mgr.getState e := by
  cases hf : s.mgr.getState a with
  | none =>
    unfold Account.setOneFactionReputation
    rw [hf]
  | some f =>
    rw [setOneFactionReputation_some hf, getState_listed he, getState_listed he, setState_of_ne]
    exact fun hid => hne ((ReputationMgr.Listed.of_getState ha hf).eq he hid.symm)

/-- The changed faction has the new standing, and is at war if that is hostile. -/
theorem Account.setOneFactionReputation_self (he : ReputationMgr.Listed t e)
    (hf : s.mgr.getState e = some f) (standing : ℤ) (incremental : Bool) :
    (s.setOneFactionReputation t e standing incremental).1.mgr.getReputation t e =
        newStanding t e f standing incremental ∧
      AtWarIfHostile t (s.setOneFactionReputation t e standing incremental).1.mgr e := by
  have hstate : (s.setOneFactionReputation t e standing incremental).1.mgr.getState e =
      some (changedState t e f standing incremental) := by
    rw [setOneFactionReputation_some hf, getState_listed he, setState_self]
  have hreputation := (getReputation_some hstate).trans
    (changedState_standing t e f standing incremental)
  refine ⟨hreputation, fun hhostile g hg hpeace => ?_⟩
  obtain rfl := some.inj (hstate.symm.trans hg)
  rw [getRank, hreputation, ← stateRank_changedState] at hhostile
  rw [hasFlag_peaceForced, changedState_flags, if_neg (by decide), getLsbD_setVisible,
    if_neg (by decide)] at hpeace
  rw [hasFlag_atWar, changedState_flags, if_pos rfl, decide_eq_true hhostile, hpeace]
  simp

/-- The factions that were changed since the request began. -/
def ChangedWell (t : Rules F) (s : Account) : Prop :=
  ∀ e, ReputationMgr.Listed t e → e.reputationListID.toNat ∈ s.changed →
    Bounded t s.mgr e ∧ AtWarIfHostile t s.mgr e

theorem ChangedWell.setOneFactionReputation (h : ChangedWell t s) (ha : a ∈ t.store.entries)
    (standing : ℤ) (incremental : Bool) :
    ChangedWell t (s.setOneFactionReputation t a standing incremental).1 := by
  cases hf : s.mgr.getState a with
  | none =>
    unfold Account.setOneFactionReputation
    rw [hf]
    exact h
  | some f =>
    intro e he hchanged
    by_cases hae : a = e
    · subst hae
      obtain ⟨hreputation, hwar⟩ := setOneFactionReputation_self he hf standing incremental
      refine ⟨?_, hwar⟩
      rw [Bounded, hreputation]
      exact newStanding_bounds t a f standing incremental
    · have hstate := getState_setOneFactionReputation (s := s) ha he hae standing incremental
      rw [setOneFactionReputation_some hf, mem_cons] at hchanged
      obtain ⟨hbounded, hwar⟩ := h e he (hchanged.resolve_left fun hid =>
        hae ((ReputationMgr.Listed.of_getState ha hf).eq he hid.symm))
      have hreputation := getReputation_congr (t := t) (congrArg (Option.map counted) hstate)
      refine ⟨?_, fun hhostile g hg => ?_⟩
      · rwa [Bounded, hreputation]
      · rw [getRank, hreputation] at hhostile
        rw [hstate] at hg
        exact hwar hhostile g hg

theorem Bounded.setOneFactionReputation (h : Bounded t s.mgr e) (he : ReputationMgr.Listed t e)
    (ha : a ∈ t.store.entries) (standing : ℤ) (incremental : Bool) :
    Bounded t (s.setOneFactionReputation t a standing incremental).1.mgr e := by
  by_cases hae : a = e
  · subst hae
    cases hf : s.mgr.getState a with
    | none =>
      unfold Account.setOneFactionReputation
      rw [hf]
      exact h
    | some f =>
      rw [Bounded, (setOneFactionReputation_self he hf standing incremental).1]
      exact newStanding_bounds t a f standing incremental
  · have hstate := getState_setOneFactionReputation (s := s) ha he hae standing incremental
    rwa [Bounded, getReputation_congr (t := t) (congrArg (Option.map counted) hstate)]

theorem getReputation_setVisible (he : ReputationMgr.Listed t e) (ha : a ∈ t.store.entries) :
    (s.setVisible a).mgr.getReputation t e =
      s.mgr.getReputation t e := by
  cases hf : s.mgr.getState a with
  | none =>
    unfold Account.setVisible
    rw [hf]
  | some f =>
    rw [setVisible_some hf]
    have hlisted := ReputationMgr.Listed.of_getState ha hf
    by_cases hae : a = e
    · subst hae
      rw [getReputation_some hf, getReputation_some
        ((getState_listed he _).trans (setState_self ..)), f.same_setVisible.standing]
    · unfold getReputation
      rw [getState_listed he, getState_listed he, setState_of_ne]
      exact fun hid => hae (hlisted.eq he hid.symm)

/-- Every request leaves a bounded reputation bounded. -/
theorem Bounded.serve (h : Bounded t s.mgr e) (he : ReputationMgr.Listed t e) (r : Request) :
    Bounded t (s.serve t r).mgr e := by
  cases r with
  | setReputation faction standing incremental =>
    rw [Account.serve]
    split
    · exact h
    · rename_i a ha
      exact setReputationOn_keeps (P := fun s : Account => Bounded t s.mgr e)
        (fun _ _ amount incremental ha hs => hs.setOneFactionReputation he ha amount incremental)
        (lookupEntry_mem ha).1 standing incremental h
  | setVisible faction =>
    rw [Account.serve]
    split
    · exact h
    · rename_i a ha
      rwa [Bounded, getReputation_setVisible he (lookupEntry_mem ha).1]
  | setVisibleTemplate faction =>
    rw [Account.serve, Account.setVisibleTemplate]
    split
    · exact h
    · split
      · exact h
      · rename_i a ha
        split
        · exact h
        · rwa [Bounded, getReputation_setVisible he (lookupEntry_mem ha).1]
  | setAtWar id on => exact h.of_counted (counted_mgr_setAtWar s.mgr id on he)
  | setInactive id on => exact h.of_counted (counted_mgr_setInactive s.mgr id on he)
  | saveToDB => exact h.of_counted (counted_saveToDB s.mgr [] he)

/-- What a request changed is within the bounds and at war if hostile. -/
theorem changedWell_serve (s : Account) (r : Request) : ChangedWell t (s.serve t r) := by
  have hnone : ∀ s : Account, s.changed = [] → ChangedWell t s := by
    intro s hs e _ hchanged
    rw [hs] at hchanged
    cases hchanged
  cases r with
  | setReputation faction standing incremental =>
    rw [Account.serve]
    split
    · exact hnone _ rfl
    · rename_i a ha
      exact setReputationOn_keeps (P := ChangedWell t)
        (fun _ _ amount incremental ha hs => hs.setOneFactionReputation ha amount incremental)
        (lookupEntry_mem ha).1 standing incremental (hnone _ rfl)
  | setVisible faction =>
    rw [Account.serve]
    split
    · exact hnone _ rfl
    · refine hnone _ ?_
      unfold Account.setVisible
      split <;> rfl
  | setVisibleTemplate faction =>
    refine hnone _ ?_
    unfold Account.serve Account.setVisibleTemplate Account.setVisible
    dsimp only
    split_ifs
    · rfl
    · split
      · rfl
      · split_ifs
        · rfl
        · split <;> rfl
  | setAtWar id on | setInactive id on | saveToDB => exact hnone _ rfl

/-! ## Gains and losses -/

/-- The reputation after a single gain. -/
def Rules.raised (t : Rules F) (amount reputation : ℤ) : ℤ :=
  let sum := toI32 (t.gain amount + reputation)
  if reputationCap < sum then reputationCap
  else if sum < reputationBottom then reputationBottom
  else sum

theorem newStanding_eq (e : FactionEntry F) (f : FactionState) (standing : ℤ) :
    newStanding t e f standing true =
      t.raised standing (toI32 (t.getBaseReputation e + f.standing)) := by
  rw [add_comm (t.getBaseReputation e)]
  rfl

/-- The reputation after a slot of the spillover, where the slot names the faction itself. -/
def returnedSlot (t : Rules F) (e : FactionEntry F) (template : RepSpilloverTemplate F)
    (standing reputation : ℤ) (i : Fin 5) : ℤ :=
  if template.faction i = e.ID ∧ e.ID ≠ 0 ∧
      reputationToRank reputation ≤ template.factionRank i then
    t.raised (t.toInt32 (t.mul (t.toFloat standing) (template.factionRate i))) reputation
  else reputation

/-- The reputation once the spillover of a gain has come back to its faction, which a slot of its
own definition or a faction that is its own parent makes it do. -/
def returned (t : Rules F) (m : ReputationMgr) (e : FactionEntry F) (standing : ℤ) : ℤ :=
  match t.repSpillover e.ID with
  | some template =>
    (List.finRange 5).foldl (returnedSlot t e template standing) (m.getReputation t e)
  | none =>
    if t.factionTeamList e.ID = none ∧ e.team = e.ID ∧ e.ID ≠ 0 ∧ !t.isZero e.spilloverRateOut ∧
        (m.getState e).any fun f => hasFlag f.flags factionFlagSpecial then
      t.raised (t.toInt32 (t.mul (t.toFloat standing) e.spilloverRateOut)) (m.getReputation t e)
    else m.getReputation t e

theorem getReputation_self (he : ReputationMgr.Listed t e) (hs : (s.mgr.getState e).isSome)
    (standing : ℤ) :
    (s.setOneFactionReputation t e standing true).1.mgr.getReputation t e =
      t.raised standing (s.mgr.getReputation t e) := by
  obtain ⟨f, hf⟩ := isSome_iff_exists.1 hs
  rw [(setOneFactionReputation_self he hf standing true).1, newStanding_eq, getReputation_some hf]

theorem isSome_setOneFactionReputation (ha : a ∈ t.store.entries) (he : ReputationMgr.Listed t e)
    (hs : (s.mgr.getState e).isSome) (standing : ℤ) (incremental : Bool) :
    ((s.setOneFactionReputation t a standing incremental).1.mgr.getState e).isSome := by
  by_cases hae : a = e
  · subst hae
    obtain ⟨f, hf⟩ := isSome_iff_exists.1 hs
    rw [setOneFactionReputation_some hf, getState_listed he, setState_self]
    rfl
  · rwa [getState_setOneFactionReputation ha he hae]

/-- One slot gives the reputation of the faction back, or leaves it. -/
theorem getReputation_spillSlotOn (he : ReputationMgr.Listed t e) (hs : (s.mgr.getState e).isSome)
    (template : RepSpilloverTemplate F) (standing : ℤ) (i : Fin 5) :
    let s' := spillSlotOn t Account.mgr (Account.setOneFactionReputation t) template standing true s i
    (s'.mgr.getState e).isSome ∧
      s'.mgr.getReputation t e =
        returnedSlot t e template standing (s.mgr.getReputation t e) i := by
  rw [spillSlotOn, returnedSlot]
  by_cases hself : template.faction i = e.ID
  · have hrank : s.mgr.getReputationRank t e.ID = reputationToRank (s.mgr.getReputation t e) := by
      rw [getReputationRank, he.lookupEntry]
      rfl
    simp only [hself, hrank, he.lookupEntry, true_and]
    split_ifs
    · exact ⟨isSome_setOneFactionReputation he.1 he hs _ true, getReputation_self he hs _⟩
    · exact ⟨hs, rfl⟩
  · have hleft : returnedSlot t e template standing (s.mgr.getReputation t e) i =
        s.mgr.getReputation t e := if_neg fun h => hself h.1
    rw [returnedSlot] at hleft
    rw [hleft]
    split_ifs
    · cases ha : t.store.lookupEntry (template.faction i) with
      | none => exact ⟨hs, rfl⟩
      | some a =>
        obtain ⟨hmem, hid⟩ := lookupEntry_mem ha
        have hne : a ≠ e := fun hae => hself (hid.symm.trans (congrArg _ hae))
        have hstate := getState_setOneFactionReputation (s := s) hmem he hne
          (t.toInt32 (t.mul (t.toFloat standing) (template.factionRate i))) true
        exact ⟨hstate ▸ hs, getReputation_congr (congrArg (Option.map counted) hstate)⟩
    · exact ⟨hs, rfl⟩

/-- What the spillover of a gain makes of the reputation of its own faction. -/
theorem getReputation_spillOn (he : ReputationMgr.Listed t e) (hs : (s.mgr.getState e).isSome)
    (standing : ℤ) :
    (spillOn t Account.mgr (Account.setOneFactionReputation t) s e standing
      true).1.mgr.getReputation t e = returned t s.mgr e standing := by
  have hslots : ∀ template (l : List (Fin 5)) (s : Account), (s.mgr.getState e).isSome →
      (l.foldl (spillSlotOn t Account.mgr (Account.setOneFactionReputation t) template standing
        true) s).mgr.getReputation t e =
      l.foldl (returnedSlot t e template standing) (s.mgr.getReputation t e) := by
    intro template l
    induction l with
    | nil => exact fun _ _ => rfl
    | cons i l ih =>
      intro s hs
      obtain ⟨hs', hreputation⟩ := getReputation_spillSlotOn he hs template standing i
      rw [foldl_cons, foldl_cons, ih _ hs', hreputation]
  -- the loop over a team leaves out the faction itself
  have hteam : ∀ out (l : List ℕ), (l.foldl (spillTeamOn t Account.mgr
      (Account.setOneFactionReputation t) e out true) (s, false)).1.mgr.getReputation t e =
        s.mgr.getReputation t e := by
    intro out l
    have hstate : (l.foldl (spillTeamOn t Account.mgr (Account.setOneFactionReputation t) e out
        true) (s, false)).1.mgr.getState e = s.mgr.getState e :=
      spillTeams_keeps (P := fun s1 : Account => s1.mgr.getState e = s.mgr.getState e)
        (fun _ _ amount incremental ha hid hs1 =>
          (getState_setOneFactionReputation ha he (fun hae => hid (hae ▸ rfl)) amount
            incremental).trans hs1) out true l rfl
    exact getReputation_congr (congrArg (Option.map counted) hstate)
  rw [spillOn, returned]
  cases t.repSpillover e.ID with
  | some template => exact hslots template _ s hs
  | none =>
    rw [spillDefaultOn]
    by_cases hback : t.factionTeamList e.ID = none ∧ e.team = e.ID ∧ e.ID ≠ 0 ∧
        (!t.isZero e.spilloverRateOut) = true ∧
        ((s.mgr.getState e).any fun f => hasFlag f.flags factionFlagSpecial) = true
    · rw [if_pos hback]
      obtain ⟨hlist, hparent, hID, hout, hspecial⟩ := hback
      rw [hlist, hparent]
      rw [if_pos ⟨hID, hout⟩, he.lookupEntry]
      dsimp only
      rw [if_pos hspecial]
      exact getReputation_self he hs _
    · rw [if_neg hback]
      cases hlist : t.factionTeamList e.ID with
      | some list => exact hteam _ list
      | none =>
        split_ifs with hout
        · cases ha : t.store.lookupEntry e.team with
          | none => rfl
          | some a =>
            obtain ⟨hmem, hid⟩ := lookupEntry_mem ha
            dsimp only
            split_ifs with hspecial
            · have hne : a ≠ e := by
                rintro rfl
                exact hback ⟨hlist, hid.symm, hid ▸ hout.1, hout.2, hspecial⟩
              exact getReputation_congr (congrArg (Option.map counted)
                (getState_setOneFactionReputation hmem he hne _ true))
            · cases t.factionTeamList e.team with
              | none => rfl
              | some list => exact hteam _ list
        · rfl

/-- A gain through `SetReputation`. -/
theorem getReputation_setReputation (he : ReputationMgr.Listed t e) (hs : (s.mgr.getState e).isSome)
    (standing : ℤ) :
    (s.setReputation t e standing true).1.mgr.getReputation t e =
      t.raised (t.onReputationChange e.ID standing true)
        (returned t s.mgr e (t.onReputationChange e.ID standing true)) := by
  have hspill : ((spillOn t Account.mgr (Account.setOneFactionReputation t) s e
      (t.onReputationChange e.ID standing true) true).1.mgr.getState e).isSome :=
    spillOn_keeps (P := fun s : Account => (s.mgr.getState e).isSome)
      (fun _ _ amount incremental ha hs => isSome_setOneFactionReputation ha he hs amount incremental)
      e _ true hs
  obtain ⟨f, hf⟩ := isSome_iff_exists.1 hspill
  rw [Account.setReputation, setReputationOn, hf]
  rw [getReputation_self he hspill, getReputation_spillOn he hs]

theorem raised_bounds (t : Rules F) (amount reputation : ℤ) :
    reputationBottom ≤ t.raised amount reputation ∧ t.raised amount reputation ≤ reputationCap :=
  clamp_bounds _

/-- What has come back is the reputation itself or within the bounds. -/
theorem returned_cases (t : Rules F) (m : ReputationMgr) (e : FactionEntry F) (standing : ℤ) :
    returned t m e standing = m.getReputation t e ∨
      (reputationBottom ≤ returned t m e standing ∧
        returned t m e standing ≤ reputationCap) := by
  have hslots : ∀ template reputation, ∀ (l : List (Fin 5)) x,
      x = reputation ∨ (reputationBottom ≤ x ∧ x ≤ reputationCap) →
      l.foldl (returnedSlot t e template standing) x = reputation ∨
        (reputationBottom ≤ l.foldl (returnedSlot t e template standing) x ∧
          l.foldl (returnedSlot t e template standing) x ≤ reputationCap) := by
    intro template reputation l
    induction l with
    | nil => exact fun _ h => h
    | cons i l ih =>
      intro x hx
      refine ih _ ?_
      rw [returnedSlot]
      split_ifs
      · exact .inr (raised_bounds t _ x)
      · exact hx
  rw [returned]
  split
  · exact hslots _ _ _ _ (.inl rfl)
  · split_ifs
    · exact .inr (raised_bounds t _ _)
    · exact .inl rfl

/-! ### At the rate 1 -/

theorem has_pow (n : ℤ) (hn : |n| ≤ 2 ^ 24) (k : ℕ) : binary32Format.Has (n * 2 ^ k : ℤ) :=
  ⟨n, k, hn, by change (-149 : ℤ) ≤ k; omega, by push_cast; rw [zpow_natCast]⟩

/-- A half above the largest gain is rounded off. -/
theorem binary32_le_of_half {x : ℚ} (h : x ≤ 2 ^ 31 + 1 / 2) : binary32 x ≤ 2 ^ 31 := by
  rcases le_or_gt x (2 ^ 31) with hle | hlt
  · exact_mod_cast BinaryFormat.round_le (has_pow 1 (by decide) 31) (by exact_mod_cast hle)
  · have hexp : binary32Format.exponent x = 8 :=
      BinaryFormat.exponent_eq (k := 31) hlt.le (h.trans_lt (by norm_num)) (by decide)
    have hnear : nearestEven (x / 2 ^ (8 : ℤ)) ≤ 2 ^ 23 := by
      refine nearestEven_le_of_lt ?_
      linarith
    rw [binary32, BinaryFormat.round, hexp]
    calc (nearestEven (x / 2 ^ (8 : ℤ)) : ℚ) * 2 ^ (8 : ℤ) ≤ (2 ^ 23 : ℤ) * 2 ^ (8 : ℤ) := by
          gcongr
      _ = 2 ^ 31 := by norm_num

variable {amount : ℤ}

/-- A gain stays one, up to the first number that does not fit. -/
theorem rounded_pos (hrate : t.rateReputationGain = 1) (hpos : 0 < amount)
    (hint : amount < 2 ^ 31) : 1 ≤ t.rounded amount ∧ t.rounded amount ≤ 2 ^ 31 := by
  have hone : binary32Format.Has (1 : ℚ) := by exact_mod_cast has_pow 1 (by decide) 0
  have htop : binary32Format.Has (2 ^ 31 : ℚ) := by exact_mod_cast has_pow 1 (by decide) 31
  have hlow : (1 : ℚ) ≤ amount := by exact_mod_cast hpos
  have hhigh : (amount : ℚ) ≤ 2 ^ 31 := by exact_mod_cast hint.le
  rw [Rules.rounded, hrate, mul_one]
  have hfirst : (1 : ℚ) ≤ binary32 amount ∧ binary32 amount ≤ 2 ^ 31 :=
    ⟨BinaryFormat.le_round hone hlow, BinaryFormat.round_le htop hhigh⟩
  have hsecond : (1 : ℚ) ≤ binary32 (binary32 amount) ∧ binary32 (binary32 amount) ≤ 2 ^ 31 :=
    ⟨BinaryFormat.le_round hone hfirst.1, BinaryFormat.round_le htop hfirst.2⟩
  constructor
  · rw [Int.le_floor]
    exact_mod_cast BinaryFormat.le_round hone (by linarith)
  · refine Int.floor_le_iff.2 ((binary32_le_of_half (by linarith)).trans_lt ?_)
    norm_num

/-- A loss stays one. -/
theorem rounded_neg (hrate : t.rateReputationGain = 1) (hneg : amount < 0)
    (hint : -2 ^ 31 ≤ amount) : -2 ^ 31 ≤ t.rounded amount ∧ t.rounded amount ≤ -1 := by
  have hone : binary32Format.Has (-1 : ℚ) := by exact_mod_cast has_pow (-1) (by decide) 0
  have hbottom : binary32Format.Has (-2 ^ 31 : ℚ) := by
    exact_mod_cast has_pow (-1) (by decide) 31
  have hhalf : binary32Format.Has (-1 / 2 : ℚ) := ⟨-1, -1, by decide, by decide, by norm_num⟩
  have hlow : (-2 ^ 31 : ℚ) ≤ amount := by exact_mod_cast hint
  have hhigh : (amount : ℚ) ≤ -1 := by exact_mod_cast Int.le_sub_one_of_lt hneg
  rw [Rules.rounded, hrate, mul_one]
  have hfirst : (-2 ^ 31 : ℚ) ≤ binary32 amount ∧ binary32 amount ≤ -1 :=
    ⟨BinaryFormat.le_round hbottom hlow, BinaryFormat.round_le hone hhigh⟩
  have hsecond : (-2 ^ 31 : ℚ) ≤ binary32 (binary32 amount) ∧ binary32 (binary32 amount) ≤ -1 :=
    ⟨BinaryFormat.le_round hbottom hfirst.1, BinaryFormat.round_le hone hfirst.2⟩
  constructor
  · rw [Int.le_floor]
    exact_mod_cast BinaryFormat.le_round hbottom (by linarith)
  · refine Int.floor_le_iff.2 ((BinaryFormat.round_le hhalf (by linarith)).trans_lt ?_)
    norm_num

/-- The one gain that does not fit wraps like the sum. -/
theorem raised_eq (hlow : -2 ^ 31 ≤ t.rounded amount) (hhigh : t.rounded amount ≤ 2 ^ 31)
    (reputation : ℤ) :
    t.raised amount reputation =
      let sum := toI32 (t.rounded amount + reputation)
      if reputationCap < sum then reputationCap
      else if sum < reputationBottom then reputationBottom
      else sum := by
  have hwrap : toI32 (t.gain amount + reputation) = toI32 (t.rounded amount + reputation) := by
    unfold Rules.gain toI32
    split_ifs <;> omega
  rw [Rules.raised, hwrap]

/-- A gain on a faction may be added : this is not above the cap, and the sum of the rounded gain and
of what the spillover leaves does not lie below the reputation and fits into 32 bits, where that is
above the bottom. -/
def MayGain (t : Rules F) (m : ReputationMgr) (e : FactionEntry F) (amount : ℤ) : Prop :=
  m.getReputation t e ≤ reputationCap ∧
    (m.getReputation t e ≤ reputationBottom ∨
      (m.getReputation t e ≤ t.rounded amount + returned t m e amount ∧
        t.rounded amount + returned t m e amount < 2 ^ 31))

/-- The same of a loss. -/
def MayLose (t : Rules F) (m : ReputationMgr) (e : FactionEntry F) (amount : ℤ) : Prop :=
  reputationBottom ≤ m.getReputation t e ∧
    (reputationCap ≤ m.getReputation t e ∨
      (t.rounded amount + returned t m e amount ≤ m.getReputation t e ∧
        -2 ^ 31 ≤ t.rounded amount + returned t m e amount))

theorem le_raised_iff (hrate : t.rateReputationGain = 1) (hpos : 0 < amount)
    (hint : amount < 2 ^ 31) :
    m.getReputation t e ≤ t.raised amount (returned t m e amount) ↔ MayGain t m e amount := by
  obtain ⟨hlow, hhigh⟩ := rounded_pos hrate hpos hint
  rw [raised_eq (by omega) hhigh, MayGain]
  have hcases := returned_cases t m e amount
  generalize t.rounded amount = gain at hlow hhigh ⊢
  generalize returned t m e amount = back at hcases ⊢
  generalize m.getReputation t e = reputation at hcases ⊢
  unfold reputationCap reputationBottom toI32 at *
  dsimp only
  split_ifs <;> omega

theorem raised_le_iff (hrate : t.rateReputationGain = 1) (hneg : amount < 0)
    (hint : -2 ^ 31 ≤ amount) :
    t.raised amount (returned t m e amount) ≤ m.getReputation t e ↔ MayLose t m e amount := by
  obtain ⟨hlow, hhigh⟩ := rounded_neg hrate hneg hint
  rw [raised_eq hlow (by omega), MayLose]
  have hcases := returned_cases t m e amount
  generalize t.rounded amount = gain at hlow hhigh ⊢
  generalize returned t m e amount = back at hcases ⊢
  generalize m.getReputation t e = reputation at hcases ⊢
  unfold reputationCap reputationBottom toI32 at *
  dsimp only
  split_ifs <;> omega

/-! ## Runs -/

theorem right_run (t : Rules F) {rows : List Row} (hrows : (rows.map Row.faction).Nodup)
    (requests : List Request) :
    Right t (run (Account.serve t) (Account.loadFromDB t rows) requests) :=
  run_of_invariant (fun _ r h => h.serve r) requests (right_loadFromDB t hrows)

/-- The bounds of a standing hold in every run. -/
theorem Bounded.run (h : Bounded t s.mgr e) (he : ReputationMgr.Listed t e)
    (requests : List Request) : Bounded t (run (Account.serve t) s requests).mgr e :=
  run_of_invariant (fun (s : Account) r (h : Bounded t s.mgr e) => h.serve he r) requests h

/-- A faction changed in a run is within its bounds, and at war where it is hostile. -/
theorem changedWell_run (t : Rules F) (rows : List Row) (requests : List Request) :
    ChangedWell t (run (Account.serve t) (Account.loadFromDB t rows) requests) := by
  refine run_of_invariant (fun s r _ => changedWell_serve s r) requests fun e _ hchanged => ?_
  have hnone : ∀ (rows : List Row) (s : Account),
      (rows.foldl (Account.loadRow t) s).changed = s.changed := by
    intro rows
    induction rows with
    | nil => exact fun _ => rfl
    | cons row rows ih =>
      intro s
      rw [foldl_cons, ih, Account.loadRow]
      split
      · rfl
      · dsimp only
        split_ifs <;> rfl
  have hinit : ∀ (l : List (FactionEntry F)) (s : Account),
      (l.foldl (Account.initFaction t) s).changed = s.changed := by
    intro l
    induction l with
    | nil => exact fun _ => rfl
    | cons e l ih =>
      intro s
      rw [foldl_cons, ih, Account.initFaction]
      split_ifs <;> rfl
  rw [Account.loadFromDB, hnone, hinit] at hchanged
  cases hchanged

end Reputation

end MistyWorld
