import MistyWorld.Reputation
import MistyWorld.Run

/-!
# Reputation across a relog

Saving the reputation of a player and loading it again should give the same standings and flags.
The flags that are loaded are those that are stored when they are `Sound` : what the setters,
replayed on the defaults, can make of them. Loading gives sound flags, and so do gaining and losing
reputation and becoming visible. A player can leave them : peace with a faction that is at war by
default and not visible, or that is hostile, and a faction inactive by default made active, are
undone by the relog (`setAtWar_forgotten`), and so is the peace with a hostile faction of a new
player. Without these the relog changes nothing (`reputation_relog`).
-/

open Keyed Option List Machine Word

namespace MistyWorld

namespace Reputation

/-! ## Bits -/

theorem hasFlag_visible (f : Flags) : hasFlag f factionFlagVisible = f.getLsbD 0 := by
  revert f
  decide

theorem hasFlag_atWar (f : Flags) : hasFlag f factionFlagAtWar = f.getLsbD 1 := by
  revert f
  decide

theorem hasFlag_peaceForced (f : Flags) : hasFlag f factionFlagPeaceForced = f.getLsbD 4 := by
  revert f
  decide

theorem hasFlag_inactive (f : Flags) : hasFlag f factionFlagInactive = f.getLsbD 5 := by
  revert f
  decide

theorem hasFlag_special (f : Flags) : hasFlag f factionFlagSpecial = f.getLsbD 7 := by
  revert f
  decide

theorem hasFlag_hidden (f : Flags) :
    hasFlag f (factionFlagInvisibleForced ||| factionFlagHidden) =
      (f.getLsbD 3 || f.getLsbD 2) := by
  revert f
  decide

theorem getLsbD_visible (i : ℕ) : factionFlagVisible.getLsbD i = decide (0 = i) :=
  BitVec.getLsbD_twoPow 0 i

theorem getLsbD_atWar (i : ℕ) : factionFlagAtWar.getLsbD i = decide (1 = i) :=
  BitVec.getLsbD_twoPow 1 i

theorem getLsbD_inactive (i : ℕ) : factionFlagInactive.getLsbD i = decide (5 = i) :=
  BitVec.getLsbD_twoPow 5 i

/-- Setting or clearing a bit, by a mask of that bit alone. -/
theorem getLsbD_set {mask : Flags} {k : ℕ} (hk : k < 8)
    (hmask : ∀ i, mask.getLsbD i = decide (k = i)) (f : Flags) (on : Bool) (i : ℕ) :
    (if on = true then f ||| mask else f &&& ~~~mask).getLsbD i =
      if i = k then on else f.getLsbD i := by
  have hor : (f ||| mask).getLsbD i = (f.getLsbD i || decide (k = i)) := by
    rw [BitVec.getLsbD_or, hmask]
  have hand : (f &&& ~~~mask).getLsbD i = (f.getLsbD i && (decide (i < 8) && !decide (k = i))) := by
    rw [BitVec.getLsbD_and, BitVec.getLsbD_not, hmask]
  have hbound : f.getLsbD i = true → i < 8 := fun h => BitVec.lt_of_getLsbD h
  by_cases hi : i = k
  · subst hi
    cases on <;> simp [hor, hand]
  · have hne : ¬k = i := fun h => hi h.symm
    cases on <;> simp [hor, hand, hi, hne]
    exact hbound

variable {on : Bool}

namespace FactionState

variable (f : FactionState)

/-- A guarded setter of one bit, bit by bit. -/
theorem getLsbD_setter {mask : Flags} {k : ℕ} (hk : k < 8)
    (hmask : ∀ i, mask.getLsbD i = decide (k = i))
    (hbit : hasFlag f.flags mask = f.flags.getLsbD k) (blocked on : Bool) (i : ℕ) :
    (if blocked = true then f
      else if hasFlag f.flags mask = on then f
      else
        { f with
          flags := if on = true then f.flags ||| mask else f.flags &&& ~~~mask
          needSave := true }).flags.getLsbD i =
      if i = k then bif blocked then f.flags.getLsbD k else on else f.flags.getLsbD i := by
  by_cases hi : i = k
  · subst hi
    rw [if_pos rfl, hbit]
    cases blocked with
    | true => rfl
    | false =>
      rw [if_neg Bool.false_ne_true]
      split
      · assumption
      · exact (getLsbD_set hk hmask f.flags on i).trans (if_pos rfl)
  · rw [if_neg hi]
    split
    · rfl
    · split
      · rfl
      · exact (getLsbD_set hk hmask f.flags on i).trans (if_neg hi)

/-- `SetVisible`, bit by bit. -/
theorem getLsbD_setVisible (i : ℕ) : f.setVisible.flags.getLsbD i =
    if i = 0 then
      f.flags.getLsbD 0 || !(f.flags.getLsbD 3 || f.flags.getLsbD 2) || f.flags.getLsbD 7
    else f.flags.getLsbD i := by
  have h := f.getLsbD_setter (by decide) getLsbD_visible (hasFlag_visible f.flags)
    ((f.flags.getLsbD 3 || f.flags.getLsbD 2) && !f.flags.getLsbD 7) true i
  rw [setVisible, hasFlag_hidden, hasFlag_special]
  refine h.trans ?_
  congr 1
  cases f.flags.getLsbD 0 <;> cases f.flags.getLsbD 2 <;> cases f.flags.getLsbD 3 <;>
    cases f.flags.getLsbD 7 <;> rfl

/-- `SetAtWar`, bit by bit. -/
theorem getLsbD_setAtWar (on : Bool) (i : ℕ) : (f.setAtWar on).flags.getLsbD i =
    if i = 1 then on && (f.flags.getLsbD 1 || !f.flags.getLsbD 4) else f.flags.getLsbD i := by
  have h := f.getLsbD_setter (by decide) getLsbD_atWar (hasFlag_atWar f.flags)
    (on && f.flags.getLsbD 4) on i
  rw [setAtWar, hasFlag_peaceForced]
  refine h.trans ?_
  congr 1
  cases on <;> cases f.flags.getLsbD 1 <;> cases f.flags.getLsbD 4 <;> rfl

/-- `SetInactive`, bit by bit. -/
theorem getLsbD_setInactive (on : Bool) (i : ℕ) : (f.setInactive on).flags.getLsbD i =
    if i = 5 then
      on && (f.flags.getLsbD 5 ||
        !(f.flags.getLsbD 3 || f.flags.getLsbD 2) && f.flags.getLsbD 0)
    else f.flags.getLsbD i := by
  have h := f.getLsbD_setter (by decide) getLsbD_inactive (hasFlag_inactive f.flags)
    (on && (f.flags.getLsbD 3 || f.flags.getLsbD 2 || !f.flags.getLsbD 0)) on i
  rw [setInactive, hasFlag_hidden, hasFlag_visible]
  refine h.trans ?_
  congr 1
  cases on <;> cases f.flags.getLsbD 0 <;> cases f.flags.getLsbD 2 <;>
    cases f.flags.getLsbD 3 <;> cases f.flags.getLsbD 5 <;> rfl

/-- A setter that does not mark the state as changed does not change it. -/
theorem setVisible_quiet (h : f.setVisible.needSave = false) : f.setVisible = f := by
  unfold setVisible at h ⊢
  split_ifs at h ⊢ <;> rfl

theorem setAtWar_quiet (h : (f.setAtWar on).needSave = false) : f.setAtWar on = f := by
  unfold setAtWar at h ⊢
  split_ifs at h ⊢ <;> rfl

theorem setInactive_quiet (h : (f.setInactive on).needSave = false) : f.setInactive on = f := by
  unfold setInactive at h ⊢
  split_ifs at h ⊢ <;> rfl

/-- The state is of the same faction, with the same standing, and still to be saved if it was. -/
structure Same (f f' : FactionState) : Prop where
  ID : f'.ID = f.ID
  standing : f'.standing = f.standing
  needSave : f.needSave = true → f'.needSave = true

theorem same_setVisible : Same f f.setVisible := by
  unfold setVisible
  split_ifs <;> exact ⟨rfl, rfl, by simp⟩

theorem same_setAtWar (on : Bool) : Same f (f.setAtWar on) := by
  unfold setAtWar
  split_ifs <;> exact ⟨rfl, rfl, by simp⟩

theorem same_setInactive (on : Bool) : Same f (f.setInactive on) := by
  unfold setInactive
  split_ifs <;> exact ⟨rfl, rfl, by simp⟩

variable {f}

theorem Same.trans {f' f'' : FactionState} (h : Same f f') (h' : Same f' f'') : Same f f'' :=
  ⟨h'.ID.trans h.ID, h'.standing.trans h.standing, fun hsave => h'.needSave (h.needSave hsave)⟩

theorem Same.refl (f : FactionState) : Same f f :=
  ⟨rfl, rfl, id⟩

theorem Same.ite {c : Prop} [Decidable c] {f' f'' : FactionState} (h : Same f f')
    (h' : Same f f'') : Same f (if c then f' else f'') := by
  split
  · exact h
  · exact h'

end FactionState

/-! ## Sound flags -/

/-- The flags are what loading them makes of the defaults `d` : the bits that no setter changes are
those of `d`, and the others can be replayed on `d`. -/
structure Sound (d : Flags) (hostile : Bool) (f : Flags) : Prop where
  others : ∀ i, i ≠ 0 → i ≠ 1 → i ≠ 5 → f.getLsbD i = d.getLsbD i
  visible : f.getLsbD 0 =
    (d.getLsbD 0 || f.getLsbD 0 && (!(d.getLsbD 3 || d.getLsbD 2) || d.getLsbD 7))
  inactive : f.getLsbD 5 =
    (d.getLsbD 5 || f.getLsbD 5 && (!(d.getLsbD 3 || d.getLsbD 2) && f.getLsbD 0))
  atWar : f.getLsbD 1 =
    ((bif f.getLsbD 1 then d.getLsbD 1 || !d.getLsbD 4 else !f.getLsbD 0 && d.getLsbD 1) ||
      hostile && !d.getLsbD 4)

namespace Sound

variable {d : Flags} {hostile : Bool} {f : FactionState}

section

variable (h : Sound d hostile f.flags)
include h

theorem setVisible : Sound d hostile f.setVisible.flags := by
  obtain ⟨hothers, hvisible, hinactive, hwar⟩ := h
  have h2 := hothers 2 (by decide) (by decide) (by decide)
  have h3 := hothers 3 (by decide) (by decide) (by decide)
  have h7 := hothers 7 (by decide) (by decide) (by decide)
  have hbit := f.getLsbD_setVisible
  rw [h2, h3, h7] at hbit
  have h0 : f.setVisible.flags.getLsbD 0 = _ := hbit 0
  have h1 : f.setVisible.flags.getLsbD 1 = f.flags.getLsbD 1 := hbit 1
  have h5 : f.setVisible.flags.getLsbD 5 = f.flags.getLsbD 5 := hbit 5
  refine ⟨fun i i0 i1 i5 => ?_, ?_, ?_, ?_⟩
  · rw [hbit, if_neg i0, hothers i i0 i1 i5]
  · rw [h0]
    generalize f.flags.getLsbD 0 = f0 at hvisible ⊢
    revert hvisible f0
    generalize d.getLsbD 0 = d0, d.getLsbD 2 = d2, d.getLsbD 3 = d3, d.getLsbD 7 = d7
    revert d0 d2 d3 d7
    decide
  · rw [h0, h5]
    revert hinactive
    generalize f.flags.getLsbD 0 = f0, f.flags.getLsbD 5 = f5, d.getLsbD 2 = d2,
      d.getLsbD 3 = d3, d.getLsbD 5 = d5, d.getLsbD 7 = d7
    revert f0 f5 d2 d3 d5 d7
    decide
  · rw [h0, h1]
    revert hwar
    generalize (!(d.getLsbD 3 || d.getLsbD 2)) = shown, f.flags.getLsbD 0 = f0,
      f.flags.getLsbD 1 = f1, d.getLsbD 1 = d1, d.getLsbD 4 = d4, d.getLsbD 7 = d7
    revert shown f0 f1 d1 d4 d7 hostile
    decide

/-- War is declared to a faction that is hostile now, and peace is made only with one that is not,
and that is visible or not at war by default. -/
theorem war {hostile' : Bool} (hpeace : on = true ∧ hostile' = true ∨ hostile' = hostile ∧
    (on = false → f.flags.getLsbD 1 = true →
      (f.flags.getLsbD 0 = true ∨ d.getLsbD 1 = false) ∧
        (hostile = false ∨ d.getLsbD 4 = true))) : Sound d hostile' (f.setAtWar on).flags := by
  obtain ⟨hothers, hvisible, hinactive, hwar⟩ := h
  have h4 := hothers 4 (by decide) (by decide) (by decide)
  have hbit := f.getLsbD_setAtWar on
  rw [h4] at hbit
  have h0 : (f.setAtWar on).flags.getLsbD 0 = f.flags.getLsbD 0 := hbit 0
  have h1 : (f.setAtWar on).flags.getLsbD 1 = _ := hbit 1
  have h5 : (f.setAtWar on).flags.getLsbD 5 = f.flags.getLsbD 5 := hbit 5
  refine ⟨fun i i0 i1 i5 => ?_, ?_, ?_, ?_⟩
  · rw [hbit, if_neg i1, hothers i i0 i1 i5]
  · rw [h0]
    exact hvisible
  · rw [h0, h5]
    exact hinactive
  · rw [h0, h1]
    clear hbit h0 h1 h5
    revert hwar hpeace
    generalize f.flags.getLsbD 0 = f0, f.flags.getLsbD 1 = f1, d.getLsbD 1 = d1, d.getLsbD 4 = d4
    cases hostile' <;> revert f0 f1 d1 d4 hostile on <;> decide

theorem setAtWar (hpeace : on = false → f.flags.getLsbD 1 = true →
      (f.flags.getLsbD 0 = true ∨ d.getLsbD 1 = false) ∧
        (hostile = false ∨ d.getLsbD 4 = true)) : Sound d hostile (f.setAtWar on).flags :=
  h.war (.inr ⟨rfl, hpeace⟩)

/-- Only a faction that is not inactive by default is made active. -/
theorem setInactive (hactive : on = false → f.flags.getLsbD 5 = true → d.getLsbD 5 = false) :
    Sound d hostile (f.setInactive on).flags := by
  obtain ⟨hothers, hvisible, hinactive, hwar⟩ := h
  have h2 := hothers 2 (by decide) (by decide) (by decide)
  have h3 := hothers 3 (by decide) (by decide) (by decide)
  have hbit := f.getLsbD_setInactive on
  rw [h2, h3] at hbit
  have h0 : (f.setInactive on).flags.getLsbD 0 = f.flags.getLsbD 0 := hbit 0
  have h1 : (f.setInactive on).flags.getLsbD 1 = f.flags.getLsbD 1 := hbit 1
  have h5 : (f.setInactive on).flags.getLsbD 5 = _ := hbit 5
  refine ⟨fun i i0 i1 i5 => ?_, ?_, ?_, ?_⟩
  · rw [hbit, if_neg i5, hothers i i0 i1 i5]
  · rw [h0]
    exact hvisible
  · rw [h0, h5]
    clear hbit h0 h1 h5
    revert hinactive hactive
    generalize (!(d.getLsbD 3 || d.getLsbD 2)) = shown, f.flags.getLsbD 0 = f0,
      f.flags.getLsbD 5 = f5, d.getLsbD 5 = d5
    revert shown f0 f5 d5 on
    decide
  · rw [h0, h1]
    exact hwar

/-- When the standing changes, war is declared to a faction that becomes hostile. -/
theorem changed (hostile' : Bool) :
    Sound d hostile' (bif hostile' then f.setAtWar true else f).flags := by
  cases hostile' with
  | false =>
    obtain ⟨hothers, hvisible, hinactive, hwar⟩ := h
    refine ⟨hothers, hvisible, hinactive, ?_⟩
    revert hwar
    dsimp only [cond_false]
    generalize f.flags.getLsbD 0 = f0, f.flags.getLsbD 1 = f1, d.getLsbD 1 = d1, d.getLsbD 4 = d4
    revert f0 f1 d1 d4 hostile
    decide
  | true => exact h.war (.inl ⟨rfl, rfl⟩)

end

end Sound

/-! ## Loading a state -/

/-- The flags that loading the flags `r` makes of the defaults `d`. -/
structure LoadedFlags (d : Flags) (hostile : Bool) (r f : Flags) : Prop where
  others : ∀ i, i ≠ 0 → i ≠ 1 → i ≠ 5 → f.getLsbD i = d.getLsbD i
  visible : f.getLsbD 0 =
    (d.getLsbD 0 || r.getLsbD 0 && (!(d.getLsbD 3 || d.getLsbD 2) || d.getLsbD 7))
  inactive : f.getLsbD 5 =
    (d.getLsbD 5 || r.getLsbD 5 && (!(d.getLsbD 3 || d.getLsbD 2) && f.getLsbD 0))
  atWar : f.getLsbD 1 =
    ((bif r.getLsbD 1 then d.getLsbD 1 || !d.getLsbD 4 else !f.getLsbD 0 && d.getLsbD 1) ||
      hostile && !d.getLsbD 4)

variable {d r : Flags} {hostile : Bool}

/-- What is loaded is sound. -/
theorem LoadedFlags.sound {f : Flags} (h : LoadedFlags d hostile r f) : Sound d hostile f := by
  obtain ⟨hothers, hvisible, hinactive, hwar⟩ := h
  refine ⟨hothers, ?_, ?_, ?_⟩
  · revert hvisible
    generalize (!(d.getLsbD 3 || d.getLsbD 2) || d.getLsbD 7) = shown, f.getLsbD 0 = f0,
      r.getLsbD 0 = r0, d.getLsbD 0 = d0
    revert shown f0 r0 d0
    decide
  · revert hinactive
    generalize (!(d.getLsbD 3 || d.getLsbD 2)) = shown, f.getLsbD 0 = f0, f.getLsbD 5 = f5,
      r.getLsbD 5 = r5, d.getLsbD 5 = d5
    revert shown f0 f5 r5 d5
    decide
  · revert hwar
    generalize f.getLsbD 0 = f0, f.getLsbD 1 = f1, r.getLsbD 1 = r1, d.getLsbD 1 = d1,
      d.getLsbD 4 = d4
    revert f0 f1 r1 d1 d4 hostile
    decide

/-- Sound flags are loaded as they are. -/
theorem Sound.loaded {f : Flags} (hr : Sound d hostile r) (h : LoadedFlags d hostile r f) :
    f = r := by
  have h0 : f.getLsbD 0 = r.getLsbD 0 := h.visible.trans hr.visible.symm
  have h5 : f.getLsbD 5 = r.getLsbD 5 := by
    have hinactive := h.inactive
    rw [h0] at hinactive
    exact hinactive.trans hr.inactive.symm
  have h1 : f.getLsbD 1 = r.getLsbD 1 := by
    have hwar := h.atWar
    rw [h0] at hwar
    exact hwar.trans hr.atWar.symm
  refine BitVec.eq_of_getLsbD_eq fun i _ => ?_
  by_cases i0 : i = 0
  · rw [i0, h0]
  by_cases i1 : i = 1
  · rw [i1, h1]
  by_cases i5 : i = 5
  · rw [i5, h5]
  · rw [h.others i i0 i1 i5, hr.others i i0 i1 i5]

/-- The defaults are sound, unless they make peace with a hostile faction. -/
theorem sound_default (h : hostile = true → d.getLsbD 1 = true ∨ d.getLsbD 4 = true) :
    Sound d hostile d := by
  refine ⟨fun _ _ _ _ => rfl, ?_, ?_, ?_⟩
  · cases d.getLsbD 0 <;> rfl
  · cases d.getLsbD 5 <;> rfl
  · revert h
    generalize d.getLsbD 0 = d0, d.getLsbD 1 = d1, d.getLsbD 4 = d4
    revert d0 d1 d4 hostile
    decide

variable {F : Type*} (t : Rules F)

/-- A faction with this standing is hostile, or worse. -/
def Rules.isHostile (e : FactionEntry F) (standing : ℤ) : Bool :=
  reputationToRank (toI32 (t.getBaseReputation e + standing)) ≤ repHostile

namespace ReputationMgr

open FactionState

/-! The setters of a load, each under its condition. -/

theorem getLsbD_ite_setVisible (c : Bool) (f : FactionState) (i : ℕ) :
    (if c = true then f.setVisible else f).flags.getLsbD i =
      if i = 0 then
        f.flags.getLsbD 0 ||
          c && (!(f.flags.getLsbD 3 || f.flags.getLsbD 2) || f.flags.getLsbD 7)
      else f.flags.getLsbD i := by
  cases c
  · split_ifs with hi <;> simp_all
  · simp [getLsbD_setVisible, Bool.or_assoc]

theorem getLsbD_ite_setInactive (c : Bool) (f : FactionState) (i : ℕ) :
    (if c = true then f.setInactive true else f).flags.getLsbD i =
      if i = 5 then
        f.flags.getLsbD 5 ||
          c && (!(f.flags.getLsbD 3 || f.flags.getLsbD 2) && f.flags.getLsbD 0)
      else f.flags.getLsbD i := by
  cases c
  · split_ifs with hi <;> simp_all
  · simp [getLsbD_setInactive]

theorem getLsbD_ite_setAtWar (c : Bool) (f : FactionState) (i : ℕ) :
    (if c = true then f.setAtWar true
      else if f.flags.getLsbD 0 = true then f.setAtWar false else f).flags.getLsbD i =
      if i = 1 then
        bif c then f.flags.getLsbD 1 || !f.flags.getLsbD 4
        else !f.flags.getLsbD 0 && f.flags.getLsbD 1
      else f.flags.getLsbD i := by
  cases c
  · cases h0 : f.flags.getLsbD 0
    · split_ifs with hi <;> simp_all
    · simp [getLsbD_setAtWar]
  · simp [getLsbD_setAtWar]

theorem getLsbD_hostile_setAtWar (hostile : Bool) (f : FactionState) (i : ℕ) :
    (bif hostile then f.setAtWar true else f).flags.getLsbD i =
      if i = 1 then f.flags.getLsbD 1 || hostile && !f.flags.getLsbD 4
      else f.flags.getLsbD i := by
  cases hostile
  · split_ifs with hi <;> simp_all
  · simp [getLsbD_setAtWar]

/-- The setters of a load, one after the other. -/
theorem loadedFlags_setters (f : FactionState) (r : Flags) (hostile : Bool) :
    LoadedFlags f.flags hostile r
      (let g := if hasFlag r factionFlagVisible then f.setVisible else f
       let g := if hasFlag r factionFlagInactive then g.setInactive true else g
       let g :=
        if hasFlag r factionFlagAtWar then g.setAtWar true
        else if hasFlag g.flags factionFlagVisible then g.setAtWar false
        else g
       bif hostile then g.setAtWar true else g).flags := by
  simp only [hasFlag_visible, hasFlag_inactive, hasFlag_atWar]
  have h₁ := getLsbD_ite_setVisible (r.getLsbD 0) f
  generalize (if r.getLsbD 0 = true then f.setVisible else f) = g1 at h₁ ⊢
  have h₂ := getLsbD_ite_setInactive (r.getLsbD 5) g1
  generalize (if r.getLsbD 5 = true then g1.setInactive true else g1) = g2 at h₂ ⊢
  have h₃ := getLsbD_ite_setAtWar (r.getLsbD 1) g2
  generalize (if r.getLsbD 1 = true then g2.setAtWar true
    else if g2.flags.getLsbD 0 = true then g2.setAtWar false else g2) = g3 at h₃ ⊢
  refine ⟨fun i i0 i1 i5 => ?_, ?_, ?_, ?_⟩
  · rw [getLsbD_hostile_setAtWar, if_neg i1, h₃, if_neg i1, h₂, if_neg i5, h₁, if_neg i0]
  all_goals
    simp only [getLsbD_hostile_setAtWar, h₃, h₂, h₁, if_true, if_false, OfNat.ofNat_ne_zero,
      OfNat.ofNat_ne_one, OfNat.zero_ne_ofNat, zero_ne_one, one_ne_zero, Nat.reduceEqDiff]

/-! ## Loading the rows -/

/-- The faction is of the reputation list of the store. -/
def Listed (e : FactionEntry F) : Prop :=
  e ∈ t.store.entries ∧ 0 ≤ e.reputationListID

variable {t} {e e' : FactionEntry F} {m : ReputationMgr} {rows : List Row} {f : FactionState}
  {id : ℕ}

theorem Listed.eq (h : Listed t e) (h' : Listed t e')
    (hid : e.reputationListID.toNat = e'.reputationListID.toNat) : e = e' := by
  refine t.store.eq_of_listID e h.1 e' h'.1 h.2 ?_
  have := h.2
  have := h'.2
  omega

theorem Listed.lookupEntry (h : Listed t e) : t.store.lookupEntry e.ID = some e :=
  find_of_mem t.store.ids_nodup h.1

theorem Listed.eq_of_ID (h : Listed t e) (h' : Listed t e') (hid : e.ID = e'.ID) : e = e' :=
  some.inj (h.lookupEntry.symm.trans (hid ▸ h'.lookupEntry))

theorem lookupEntry_mem (h : t.store.lookupEntry id = some e) : e ∈ t.store.entries ∧ e.ID = id :=
  mem_of_find h

theorem getState_listed (h : Listed t e) (m : ReputationMgr) :
    m.getState e = m.factions e.reputationListID.toNat :=
  if_pos h.2

theorem setState_self (m : ReputationMgr) (id : ℕ) (f : FactionState) :
    (m.setState id f).factions id = some f :=
  Function.update_self ..

theorem setState_of_ne (m : ReputationMgr) {id' : ℕ} (h : id' ≠ id) (f : FactionState) :
    (m.setState id f).factions id' = m.factions id' :=
  Function.update_of_ne h ..

/-- The body of the loop of `Initialize`. -/
def initFaction (t : Rules F) (m : ReputationMgr) (e : FactionEntry F) : ReputationMgr :=
  if 0 ≤ e.reputationListID then m.setState e.reputationListID.toNat (newFaction t e) else m

/-- What the loop of `Initialize` over some factions puts at a list id. -/
theorem foldl_initFaction (id : ℕ) : ∀ (l : List (FactionEntry F)) (m : ReputationMgr),
    (∀ e ∈ l, e ∈ t.store.entries) →
    (∀ e ∈ l, Listed t e → e.reputationListID.toNat = id →
      (l.foldl (initFaction t) m).factions id = some (newFaction t e)) ∧
    ((∀ e ∈ l, Listed t e → e.reputationListID.toNat ≠ id) →
      (l.foldl (initFaction t) m).factions id = m.factions id)
  | [], _, _ => ⟨fun _ he => absurd he not_mem_nil, fun _ => rfl⟩
  | e :: l, m, hl => by
    have he := hl e mem_cons_self
    obtain ⟨hin, hout⟩ := foldl_initFaction id l (initFaction t m e)
      fun a ha => hl a (mem_cons_of_mem e ha)
    rw [foldl_cons]
    refine ⟨fun a ha hlisted hid => ?_, fun hnone => ?_⟩
    · by_cases hal : ∃ b ∈ l, Listed t b ∧ b.reputationListID.toNat = id
      · obtain ⟨b, hb, hblisted, hbid⟩ := hal
        rw [hin b hb hblisted hbid, hlisted.eq hblisted (hid.trans hbid.symm)]
      · have hae : a = e := (mem_cons.1 ha).resolve_right fun hal' =>
          hal ⟨a, hal', hlisted, hid⟩
        rw [hout fun b hb hblisted hbid => hal ⟨b, hb, hblisted, hbid⟩, ← hae, initFaction,
          if_pos hlisted.2, hid, setState_self]
    · rw [hout fun b hb => hnone b (mem_cons_of_mem e hb), initFaction]
      split
      · rename_i hlisted
        exact setState_of_ne m (hnone e mem_cons_self ⟨he, hlisted⟩).symm _
      · rfl

theorem initFactions_listed (h : Listed t e) :
    (initFactions t).factions e.reputationListID.toNat = some (newFaction t e) :=
  (foldl_initFaction _ t.store.entries {} fun _ he => he).1 e h.1 h rfl

theorem initFactions_none (h : ∀ e, Listed t e → e.reputationListID.toNat ≠ id) :
    (initFactions t).factions id = none :=
  (foldl_initFaction id t.store.entries {} fun _ he => he).2 fun e _ => h e

theorem loadRow_other (m : ReputationMgr) {row : Row}
    (h : ∀ e, Listed t e → e.ID = row.faction → e.reputationListID.toNat ≠ id) :
    (loadRow t m row).factions id = m.factions id := by
  rw [loadRow]
  split
  · rfl
  · rename_i e hlookup
    obtain ⟨he, hid⟩ := lookupEntry_mem hlookup
    split
    · rename_i hlisted
      exact setState_of_ne m (h e ⟨he, hlisted⟩ hid).symm _
    · rfl

theorem loadRow_self (h : Listed t e) (m : ReputationMgr) {row : Row} (hrow : row.faction = e.ID) :
    (loadRow t m row).factions e.reputationListID.toNat =
      some (loadedState t e ((m.factions e.reputationListID.toNat).getD {}) row) := by
  rw [loadRow, hrow, h.lookupEntry]
  dsimp only
  rw [if_pos h.2, setState_self, getState_listed h]

/-- The rows of the other factions leave the state of a faction. -/
theorem foldl_loadRow_other : ∀ {rows : List Row} {m : ReputationMgr},
    (∀ row ∈ rows, ∀ e, Listed t e → e.ID = row.faction → e.reputationListID.toNat ≠ id) →
    (rows.foldl (loadRow t) m).factions id = m.factions id
  | [], _, _ => rfl
  | row :: rows, m, h => by
    rw [foldl_cons, foldl_loadRow_other fun r hr => h r (mem_cons_of_mem row hr),
      loadRow_other m (h row mem_cons_self)]

/-- The row of a faction makes its state. -/
theorem foldl_loadRow_self (h : Listed t e) : ∀ {rows : List Row} {m : ReputationMgr} {row : Row},
    (rows.map Row.faction).Nodup → row ∈ rows → row.faction = e.ID →
    (rows.foldl (loadRow t) m).factions e.reputationListID.toNat =
      some (loadedState t e ((m.factions e.reputationListID.toNat).getD {}) row)
  | r :: rows, m, row, hnodup, hmem, hrow => by
    obtain ⟨hr, hrows⟩ := nodup_cons.1 hnodup
    have hne : ∀ a, Listed t a → a.ID ≠ e.ID →
        a.reputationListID.toNat ≠ e.reputationListID.toNat :=
      fun a ha hid heq => hid (congrArg FactionEntry.ID (ha.eq h heq))
    rw [foldl_cons]
    rcases mem_cons.1 hmem with rfl | hmem
    · rw [foldl_loadRow_other, loadRow_self h m hrow]
      intro a ha b hb hid
      refine hne b hb fun hbe => hr ?_
      rw [hrow, ← hbe, hid]
      exact mem_map_of_mem ha
    · rw [foldl_loadRow_self h hrows hmem hrow, loadRow_other]
      intro b hb hid
      refine hne b hb fun hbe => hr ?_
      rw [← hid, hbe, ← hrow]
      exact mem_map_of_mem hmem

theorem loadFromDB_row (h : Listed t e) (hnodup : (rows.map Row.faction).Nodup) {row : Row}
    (hmem : row ∈ rows) (hrow : row.faction = e.ID) :
    (loadFromDB t rows).factions e.reputationListID.toNat =
      some (loadedState t e (newFaction t e) row) := by
  rw [loadFromDB, foldl_loadRow_self h hnodup hmem hrow, initFactions_listed h]
  rfl

theorem loadFromDB_noRow (h : Listed t e) (hnone : e.ID ∉ rows.map Row.faction) :
    (loadFromDB t rows).factions e.reputationListID.toNat = some (newFaction t e) := by
  rw [loadFromDB, foldl_loadRow_other, initFactions_listed h]
  intro row hrow b hb hid heq
  refine hnone ?_
  rw [← hb.eq h heq, hid]
  exact mem_map_of_mem hrow

theorem loadFromDB_none (rows : List Row) (h : ∀ e, Listed t e → e.reputationListID.toNat ≠ id) :
    (loadFromDB t rows).factions id = none := by
  rw [loadFromDB, foldl_loadRow_other fun _ _ e he _ => h e he, initFactions_none h]

/-! ## Saving the rows -/

theorem saveRow_nodup (m : ReputationMgr) (id : ℕ) (h : (rows.map Row.faction).Nodup) :
    ((saveRow m rows id).map Row.faction).Nodup := by
  rw [saveRow]
  split
  · exact h
  · split
    · rw [map_append]
      refine nodup_append'.2 ⟨nodup_remove h _, nodup_singleton _, ?_⟩
      refine disjoint_singleton.2 fun hmem => ?_
      obtain ⟨row, hrow, hfaction⟩ := mem_map.1 hmem
      exact (mem_remove.1 hrow).2 hfaction
    · exact h

theorem foldl_saveRow_nodup (m : ReputationMgr) : ∀ {ids : List ℕ} {rows : List Row},
    (rows.map Row.faction).Nodup → ((ids.foldl (saveRow m) rows).map Row.faction).Nodup
  | [], _, h => h
  | id :: _, _, h => by
    rw [foldl_cons]
    exact foldl_saveRow_nodup m (saveRow_nodup m id h)

/-- The states are those of the listed factions, under their list ids, and the ids of the factions
fit in a row. -/
structure Placed (t : Rules F) (m : ReputationMgr) : Prop where
  id_lt : ∀ e, Listed t e → e.ID < 2 ^ 16
  state : ∀ e, Listed t e → ∃ f, m.factions e.reputationListID.toNat = some f
  only : ∀ id f, m.factions id = some f →
    ∃ e, Listed t e ∧ e.reputationListID.toNat = id ∧ f.ID = e.ID

/-- The row that a state is saved in. -/
def savedRow (e : FactionEntry F) (f : FactionState) : Row :=
  ⟨e.ID, f.standing, f.flags.toNat⟩

theorem Placed.state_ID (h : Placed t m) (he : Listed t e)
    (hf : m.factions e.reputationListID.toNat = some f) : f.ID = e.ID := by
  obtain ⟨a, ha, hid, hfID⟩ := h.only _ f hf
  rw [hfID, ha.eq he hid]

theorem Placed.toU16_ID (h : Placed t m) (he : Listed t e) : toU16 e.ID = e.ID := by
  have := h.id_lt e he
  unfold toU16
  omega

theorem saveRow_self (h : Placed t m) (he : Listed t e)
    (hf : m.factions e.reputationListID.toNat = some f) (hsave : f.needSave = true)
    (rows : List Row) :
    find Row.faction (saveRow m rows e.reputationListID.toNat) e.ID =
      some (savedRow e f) := by
  rw [saveRow, hf]
  dsimp only
  rw [if_pos hsave, h.state_ID he hf, h.toU16_ID he, find, List.find?_append]
  rw [show List.find? _ _ = none from find_remove_self rows e.ID]
  simp [savedRow]

theorem saveRow_other (h : Placed t m) (he : Listed t e)
    (hid : (∀ f, m.factions id = some f → f.needSave = false) ∨ id ≠ e.reputationListID.toNat)
    (rows : List Row) : find Row.faction (saveRow m rows id) e.ID = find Row.faction rows e.ID := by
  rw [saveRow]
  split
  · rfl
  · rename_i f hf
    split
    · rename_i hsave
      obtain ⟨a, ha, haid, hfID⟩ := h.only id f hf
      have hne : e.ID ≠ a.ID := by
        rcases hid with hquiet | hid
        · exact absurd hsave (by rw [hquiet f hf]; decide)
        · exact fun heq => hid (by rw [← haid, he.eq_of_ID ha heq])
      rw [hfID, h.toU16_ID ha, find, List.find?_append]
      rw [show List.find? _ _ = find Row.faction rows e.ID from
        find_remove_of_ne hne rows]
      simp [hne.symm]
    · rfl

theorem foldl_saveRow_other (h : Placed t m) (he : Listed t e) :
    ∀ {ids : List ℕ} {rows : List Row},
    ((∀ f, m.factions e.reputationListID.toNat = some f → f.needSave = false) ∨
      e.reputationListID.toNat ∉ ids) →
    find Row.faction (ids.foldl (saveRow m) rows) e.ID = find Row.faction rows e.ID
  | [], _, _ => rfl
  | id :: ids, rows, hids => by
    rw [foldl_cons, foldl_saveRow_other h he, saveRow_other h he]
    · by_cases hid : id = e.reputationListID.toNat
      · refine .inl (hids.elim (fun hquiet => hid ▸ hquiet) fun hnot => ?_)
        exact absurd (hid ▸ mem_cons_self) hnot
      · exact .inr hid
    · exact hids.imp_right fun hnot hmem => hnot (mem_cons_of_mem id hmem)

theorem foldl_saveRow_self (h : Placed t m) (he : Listed t e)
    (hf : m.factions e.reputationListID.toNat = some f) (hsave : f.needSave = true) :
    ∀ {ids : List ℕ} {rows : List Row},
    e.reputationListID.toNat ∈ ids →
    find Row.faction (ids.foldl (saveRow m) rows) e.ID = some (savedRow e f)
  | id :: ids, rows, hmem => by
    rw [foldl_cons]
    by_cases hrest : e.reputationListID.toNat ∈ ids
    · exact foldl_saveRow_self h he hf hsave hrest
    · have hid : e.reputationListID.toNat = id := (mem_cons.1 hmem).resolve_right hrest
      rw [foldl_saveRow_other h he (.inr hrest), ← hid, saveRow_self h he hf hsave]

theorem mem_listIDs (he : Listed t e) : e.reputationListID.toNat ∈ listIDs t := by
  rw [listIDs, mem_mergeSort]
  refine mem_map.2 ⟨e, mem_filter.2 ⟨he.1, decide_eq_true he.2⟩, rfl⟩

/-! ## What the changes keep -/

/-- The state of a faction against its stored row : the flags are sound, and a state that is not to
be saved is the stored one. -/
structure Kept (t : Rules F) (rows : List Row) (e : FactionEntry F) (f : FactionState) : Prop where
  ID : f.ID = e.ID
  sound : Sound (t.getDefaultStateFlags e) (t.isHostile e f.standing) f.flags
  saved : f.needSave = false → find Row.faction rows e.ID = some (savedRow e f)

theorem Kept.setVisible (h : Kept t rows e f) :
    Kept t rows e f.setVisible where
  ID := f.same_setVisible.ID.trans h.ID
  sound := by
    rw [f.same_setVisible.standing]
    exact h.sound.setVisible
  saved := fun hquiet => by
    have hsame := f.setVisible_quiet hquiet
    rw [hsame] at hquiet ⊢
    exact h.saved hquiet

/-- Peace with the faction would last a relog. -/
def PeaceLasts (t : Rules F) (e : FactionEntry F) (f : FactionState) : Prop :=
  (hasFlag f.flags factionFlagVisible = true ∨
    hasFlag (t.getDefaultStateFlags e) factionFlagAtWar = false) ∧
  (t.isHostile e f.standing = false ∨
    hasFlag (t.getDefaultStateFlags e) factionFlagPeaceForced = true)

theorem Kept.setAtWar (h : Kept t rows e f)
    (hpeace : on = false → hasFlag f.flags factionFlagAtWar = true → PeaceLasts t e f) :
    Kept t rows e (f.setAtWar on) where
  ID := (f.same_setAtWar on).ID.trans h.ID
  sound := by
    rw [(f.same_setAtWar on).standing]
    refine h.sound.setAtWar fun hon hwar => ?_
    have := hpeace hon (by rwa [hasFlag_atWar])
    rwa [PeaceLasts, hasFlag_visible, hasFlag_atWar, hasFlag_peaceForced] at this
  saved := fun hquiet => by
    have hsame := f.setAtWar_quiet hquiet
    rw [hsame] at hquiet ⊢
    exact h.saved hquiet

theorem Kept.setInactive (h : Kept t rows e f)
    (hactive : on = false → hasFlag f.flags factionFlagInactive = true →
      hasFlag (t.getDefaultStateFlags e) factionFlagInactive = false) :
    Kept t rows e (f.setInactive on) where
  ID := (f.same_setInactive on).ID.trans h.ID
  sound := by
    rw [(f.same_setInactive on).standing]
    refine h.sound.setInactive fun hon hinactive => ?_
    have := hactive hon (by rwa [hasFlag_inactive])
    rwa [hasFlag_inactive] at this
  saved := fun hquiet => by
    have hsame := f.setInactive_quiet hquiet
    rw [hsame] at hquiet ⊢
    exact h.saved hquiet

theorem toI32_add_sub (base : ℤ) {standing : ℤ} (hlow : reputationBottom ≤ standing)
    (hcap : standing ≤ reputationCap) : toI32 (base + toI32 (standing - base)) = standing := by
  unfold reputationBottom at hlow
  unfold reputationCap at hcap
  unfold toI32
  omega

/-- The standing that is set is within its bounds. -/
theorem clamp_bounds (amount : ℤ) :
    reputationBottom ≤ (if reputationCap < amount then reputationCap
      else if amount < reputationBottom then reputationBottom else amount) ∧
    (if reputationCap < amount then reputationCap
      else if amount < reputationBottom then reputationBottom else amount) ≤ reputationCap := by
  unfold reputationCap reputationBottom
  split_ifs <;> omega

/-- A gain or loss of reputation. -/
theorem Kept.changedState (h : Kept t rows e f) (standing : ℤ) (incremental : Bool) :
    Kept t rows e (changedState t e f standing incremental) := by
  rw [ReputationMgr.changedState]
  generalize (if incremental = true then _ else standing) = amount
  obtain ⟨hlow, hcap⟩ := clamp_bounds amount
  generalize (if reputationCap < amount then reputationCap
    else if amount < reputationBottom then reputationBottom else amount) = clamped at hlow hcap ⊢
  generalize hf' : ({ f with
    standing := toI32 (clamped - t.getBaseReputation e), needSave := true } : FactionState) = f'
  have hrank : t.isHostile e f'.standing = decide (reputationToRank clamped ≤ repHostile) := by
    rw [← hf', Rules.isHostile, toI32_add_sub _ hlow hcap]
  have hID : f'.ID = e.ID := by
    rw [← hf']
    exact h.ID
  have hsave : f'.needSave = true := by rw [← hf']
  have hsound : Sound (t.getDefaultStateFlags e) (t.isHostile e f.standing) f'.flags := by
    rw [← hf']
    exact h.sound
  have hsame : Same f' (if reputationToRank clamped ≤ repHostile then f'.setVisible.setAtWar true
      else f'.setVisible) :=
    .ite (f'.same_setVisible.trans (f'.setVisible.same_setAtWar true)) f'.same_setVisible
  refine ⟨hsame.ID.trans hID, ?_, fun hquiet => ?_⟩
  · have hchanged := hsound.setVisible.changed (t.isHostile e f'.standing)
    rw [hsame.standing]
    rw [hrank] at hchanged ⊢
    by_cases hhostile : reputationToRank clamped ≤ repHostile
    · rw [if_pos hhostile]
      rwa [decide_eq_true hhostile] at hchanged ⊢
    · rw [if_neg hhostile]
      rwa [decide_eq_false hhostile] at hchanged ⊢
  · rw [hsame.needSave hsave] at hquiet
    cases hquiet

/-- The setters that a load replays on a state, but for the last one. -/
def replayedFlags (f : FactionState) (r : Flags) : FactionState :=
  let g := if hasFlag r factionFlagVisible then f.setVisible else f
  let g := if hasFlag r factionFlagInactive then g.setInactive true else g
  if hasFlag r factionFlagAtWar then g.setAtWar true
  else if hasFlag g.flags factionFlagVisible then g.setAtWar false
  else g

/-- What the setters of a load make of a state. -/
def replayed (t : Rules F) (e : FactionEntry F) (f : FactionState) (r : Flags) : FactionState :=
  bif t.isHostile e f.standing then (replayedFlags f r).setAtWar true else replayedFlags f r

theorem same_replayedFlags (f : FactionState) (r : Flags) : Same f (replayedFlags f r) := by
  rw [replayedFlags]
  generalize hg1 : (if hasFlag r factionFlagVisible = true then f.setVisible else f) = g1
  have h₁ : Same f g1 := hg1 ▸ .ite f.same_setVisible (.refl f)
  generalize hg2 : (if hasFlag r factionFlagInactive = true then g1.setInactive true else g1) = g2
  have h₂ : Same f g2 := hg2 ▸ h₁.trans (.ite (g1.same_setInactive true) (.refl g1))
  exact h₂.trans (.ite (g2.same_setAtWar true) (.ite (g2.same_setAtWar false) (.refl g2)))

theorem same_replayed (t : Rules F) (e : FactionEntry F) (f : FactionState) (r : Flags) :
    Same f (replayed t e f r) := by
  rw [replayed]
  cases t.isHostile e f.standing
  · exact same_replayedFlags f r
  · exact (same_replayedFlags f r).trans ((replayedFlags f r).same_setAtWar true)

/-- Loading replays the flags, and compares with the row. -/
theorem loadedState_eq (t : Rules F) (e : FactionEntry F) (f : FactionState) (row : Row) :
    loadedState t e f row =
      let g := replayed t e { f with standing := row.standing } (BitVec.ofNat 8 row.flags)
      if g.flags.toNat = row.flags then { g with needSave := false } else g := by
  have hstanding := (same_replayedFlags { f with standing := row.standing }
    (BitVec.ofNat 8 row.flags)).standing
  have hloaded : loadedState t e f row =
      let g := replayedFlags { f with standing := row.standing } (BitVec.ofNat 8 row.flags)
      let g := if reputationToRank (toI32 (t.getBaseReputation e + g.standing)) ≤ repHostile then
        g.setAtWar true else g
      if g.flags.toNat = row.flags then { g with needSave := false } else g := rfl
  rw [hloaded, replayed, Rules.isHostile, Bool.cond_decide]
  dsimp only
  rw [hstanding]

theorem loadedState_cases (t : Rules F) (e : FactionEntry F) (f : FactionState) (row : Row) :
    (loadedState t e f row).ID = f.ID ∧ (loadedState t e f row).standing = row.standing ∧
    LoadedFlags f.flags (t.isHostile e row.standing) (BitVec.ofNat 8 row.flags)
      (loadedState t e f row).flags ∧
    (f.needSave = true → (loadedState t e f row).needSave = false →
      (loadedState t e f row).flags.toNat = row.flags) := by
  have hsame := same_replayed t e { f with standing := row.standing } (BitVec.ofNat 8 row.flags)
  have hflags := loadedFlags_setters { f with standing := row.standing }
    (BitVec.ofNat 8 row.flags) (t.isHostile e row.standing)
  rw [loadedState_eq]
  dsimp only
  split
  · rename_i heq
    exact ⟨hsame.ID, hsame.standing, hflags, fun _ _ => heq⟩
  · refine ⟨hsame.ID, hsame.standing, hflags, fun hsave hquiet => ?_⟩
    rw [hsame.needSave hsave] at hquiet
    cases hquiet

/-! ## Books -/

/-- The reputation of a player and its stored rows. -/
structure Book where
  mgr : ReputationMgr
  rows : List Row

/-- The invariant : every state is as it was stored, or is to be saved, and its flags are sound. -/
structure Faithful (t : Rules F) (b : Book) : Prop where
  placed : Placed t b.mgr
  rows_nodup : (b.rows.map Row.faction).Nodup
  kept : ∀ e f, Listed t e → b.mgr.factions e.reputationListID.toNat = some f →
    Kept t b.rows e f

/-- No new hostile faction is at peace by default. -/
def NoDefaultPeace (t : Rules F) (rows : List Row) : Prop :=
  ∀ e, Listed t e → e.ID ∉ rows.map Row.faction → t.isHostile e 0 = true →
    hasFlag (t.getDefaultStateFlags e) factionFlagAtWar = true ∨
      hasFlag (t.getDefaultStateFlags e) factionFlagPeaceForced = true

/-- What is loaded is faithful. -/
theorem faithful_loadFromDB (hids : ∀ e, Listed t e → e.ID < 2 ^ 16)
    (hrows : (rows.map Row.faction).Nodup) (hpeace : NoDefaultPeace t rows) :
    Faithful t ⟨loadFromDB t rows, rows⟩ := by
  have hstate : ∀ e, Listed t e →
      ((∃ row ∈ rows, row.faction = e.ID ∧ (loadFromDB t rows).factions e.reputationListID.toNat =
        some (loadedState t e (newFaction t e) row)) ∨
      e.ID ∉ rows.map Row.faction ∧
        (loadFromDB t rows).factions e.reputationListID.toNat = some (newFaction t e)) := by
    intro e he
    by_cases hrow : e.ID ∈ rows.map Row.faction
    · obtain ⟨row, hmem, hfaction⟩ := mem_map.1 hrow
      exact .inl ⟨row, hmem, hfaction, loadFromDB_row he hrows hmem hfaction⟩
    · exact .inr ⟨hrow, loadFromDB_noRow he hrow⟩
  have hID : ∀ e f, Listed t e →
      (loadFromDB t rows).factions e.reputationListID.toNat = some f → f.ID = e.ID := by
    intro e f he hf
    rcases hstate e he with ⟨row, -, -, heq⟩ | ⟨-, heq⟩
    · obtain rfl := some.inj (hf.symm.trans heq)
      exact (loadedState_cases t e (newFaction t e) row).1
    · obtain rfl := some.inj (hf.symm.trans heq)
      rfl
  refine ⟨⟨hids, fun e he => ?_, fun id f hf => ?_⟩, hrows, fun e f he hf => ?_⟩
  · rcases hstate e he with ⟨row, -, -, heq⟩ | ⟨-, heq⟩ <;> exact ⟨_, heq⟩
  · by_cases hlisted : ∃ e, Listed t e ∧ e.reputationListID.toNat = id
    · obtain ⟨e, he, hid⟩ := hlisted
      exact ⟨e, he, hid, hID e f he (hid ▸ hf)⟩
    · rw [loadFromDB_none rows fun e he hid => hlisted ⟨e, he, hid⟩] at hf
      cases hf
  · refine ⟨hID e f he hf, ?_, ?_⟩
    · rcases hstate e he with ⟨row, -, -, heq⟩ | ⟨hnone, heq⟩
      · obtain rfl := some.inj (hf.symm.trans heq)
        obtain ⟨-, hstanding, hflags, -⟩ := loadedState_cases t e (newFaction t e) row
        rw [hstanding]
        exact hflags.sound
      · obtain rfl := some.inj (hf.symm.trans heq)
        refine sound_default fun hhostile => ?_
        have := hpeace e he hnone hhostile
        rwa [hasFlag_atWar, hasFlag_peaceForced] at this
    · intro hquiet
      rcases hstate e he with ⟨row, hmem, hfaction, heq⟩ | ⟨-, heq⟩
      · obtain rfl := some.inj (hf.symm.trans heq)
        obtain ⟨-, hstanding, -, hflags⟩ := loadedState_cases t e (newFaction t e) row
        rw [← hfaction, find_of_mem hrows hmem, savedRow, hstanding, hflags rfl hquiet,
          ← hfaction]
      · obtain rfl := some.inj (hf.symm.trans heq)
        cases hquiet

theorem Faithful.setState (h : Faithful t ⟨m, rows⟩) (he : Listed t e) (hkept : Kept t rows e f) :
    Faithful t ⟨m.setState e.reputationListID.toNat f, rows⟩ := by
  have hstate : ∀ a g, Listed t a →
      (m.setState e.reputationListID.toNat f).factions a.reputationListID.toNat = some g →
      a = e ∧ g = f ∨ m.factions a.reputationListID.toNat = some g := by
    intro a g ha hg
    by_cases hid : a.reputationListID.toNat = e.reputationListID.toNat
    · rw [hid, setState_self] at hg
      exact .inl ⟨ha.eq he hid, (some.inj hg).symm⟩
    · rw [setState_of_ne m hid] at hg
      exact .inr hg
  refine ⟨⟨h.placed.id_lt, fun a ha => ?_, fun id g hg => ?_⟩, h.rows_nodup, fun a g ha hg => ?_⟩
  · by_cases hid : a.reputationListID.toNat = e.reputationListID.toNat
    · exact ⟨f, hid ▸ setState_self m _ f⟩
    · obtain ⟨g, hg⟩ := h.placed.state a ha
      exact ⟨g, (setState_of_ne m hid f).trans hg⟩
  · by_cases hid : id = e.reputationListID.toNat
    · rw [hid, setState_self] at hg
      exact ⟨e, he, hid.symm, some.inj hg ▸ hkept.ID⟩
    · rw [setState_of_ne m hid] at hg
      exact h.placed.only id g hg
  · rcases hstate a g ha hg with ⟨rfl, rfl⟩ | hg
    · exact hkept
    · exact h.kept a g ha hg

theorem Faithful.setOneFactionReputation (h : Faithful t ⟨m, rows⟩) (he : e ∈ t.store.entries)
    (standing : ℤ) (incremental : Bool) :
    Faithful t ⟨(m.setOneFactionReputation t e standing incremental).1, rows⟩ := by
  rw [ReputationMgr.setOneFactionReputation]
  by_cases hid : 0 ≤ e.reputationListID
  · rw [getState_listed ⟨he, hid⟩]
    obtain ⟨f, hf⟩ := h.placed.state e ⟨he, hid⟩
    rw [hf]
    exact h.setState ⟨he, hid⟩ ((h.kept e f ⟨he, hid⟩ hf).changedState standing incremental)
  · rw [getState, if_neg hid]
    exact h

/-- What single changes of reputation keep, the whole one with its spillover keeps. -/
theorem setReputation_keeps {P : ReputationMgr → Prop}
    (hP : ∀ m e standing incremental, e ∈ t.store.entries → P m →
      P (m.setOneFactionReputation t e standing incremental).1) (h : P m) (he : e ∈ t.store.entries)
    (standing : ℤ) (incremental : Bool) : P (m.setReputation t e standing incremental).1 := by
  have hslot : ∀ template amount (l : List (Fin 5)) m, P m →
      P (l.foldl (spillSlot t template amount incremental) m) := by
    intro template amount l
    induction l with
    | nil => exact fun m hm => hm
    | cons i l ih =>
      intro m hm
      refine ih _ ?_
      rw [spillSlot]
      split
      · split
        · exact hm
        · rename_i a hlookup
          exact hP m a _ _ (lookupEntry_mem hlookup).1 hm
      · exact hm
  have hteam : ∀ a out (l : List ℕ) s, P s.1 →
      P (l.foldl (spillTeam t a out incremental) s).1 := by
    intro a out l
    induction l with
    | nil => exact fun s hs => hs
    | cons faction l ih =>
      intro s hs
      refine ih _ ?_
      rw [spillTeam]
      split
      · exact hs
      · rename_i other hlookup
        split
        · exact hs
        · dsimp only
          split
          · exact hP s.1 other _ _ (lookupEntry_mem hlookup).1 hs
          · exact hs
  have hdefault : ∀ amount, P (m.spillDefault t e amount incremental).1 := by
    intro amount
    rw [spillDefault]
    split
    · exact hteam _ _ _ _ h
    · split
      · dsimp only
        split
        · exact h
        · rename_i parent hlookup
          split
          · exact hP m parent _ _ (lookupEntry_mem hlookup).1 h
          · split
            · exact hteam _ _ _ _ h
            · exact h
      · exact h
  rw [ReputationMgr.setReputation]
  split
  · refine hP _ e _ _ he ?_
    split
    · exact hslot _ _ _ _ h
    · exact hdefault _
  · split
    · exact hslot _ _ _ _ h
    · exact hdefault _

theorem Faithful.setReputation (h : Faithful t ⟨m, rows⟩) (he : e ∈ t.store.entries) (standing : ℤ)
    (incremental : Bool) : Faithful t ⟨(m.setReputation t e standing incremental).1, rows⟩ := by
  refine setReputation_keeps (t := t) (P := fun m => Faithful t ⟨m, rows⟩) ?_ h he standing
    incremental
  exact fun m a amount incremental ha hm => hm.setOneFactionReputation ha amount incremental

theorem Faithful.setVisible (h : Faithful t ⟨m, rows⟩) (he : e ∈ t.store.entries) :
    Faithful t ⟨m.setVisible e, rows⟩ := by
  rw [ReputationMgr.setVisible]
  by_cases hid : 0 ≤ e.reputationListID
  · rw [getState_listed ⟨he, hid⟩]
    obtain ⟨f, hf⟩ := h.placed.state e ⟨he, hid⟩
    rw [hf]
    exact h.setState ⟨he, hid⟩ (h.kept e f ⟨he, hid⟩ hf).setVisible
  · rw [getState, if_neg hid]
    exact h

theorem Faithful.setVisibleTemplate (h : Faithful t ⟨m, rows⟩) (faction : ℕ) :
    Faithful t ⟨m.setVisibleTemplate t faction, rows⟩ := by
  rw [ReputationMgr.setVisibleTemplate]
  split
  · exact h
  · split
    · exact h
    · rename_i a hlookup
      split
      · exact h
      · exact h.setVisible (lookupEntry_mem hlookup).1

/-- A saved state is the stored one, whether it is marked or not. -/
theorem Faithful.find_saveToDB {b : Book} (h : Faithful t b) (he : Listed t e)
    (hf : b.mgr.factions e.reputationListID.toNat = some f) :
    find Row.faction (b.mgr.saveToDB t b.rows).2 e.ID = some (savedRow e f) := by
  rw [saveToDB]
  cases hsave : f.needSave with
  | true => exact foldl_saveRow_self h.placed he hf hsave (mem_listIDs he)
  | false =>
    rw [foldl_saveRow_other h.placed he (.inl fun g hg => by
      rw [some.inj (hg.symm.trans hf), hsave])]
    exact (h.kept e f he hf).saved hsave

theorem Faithful.saveToDB {b : Book} (h : Faithful t b) :
    Faithful t ⟨(b.mgr.saveToDB t b.rows).1, (b.mgr.saveToDB t b.rows).2⟩ := by
  have hstate : ∀ id g, (b.mgr.saveToDB t b.rows).1.factions id = some g →
      ∃ f, b.mgr.factions id = some f ∧ { f with needSave := false } = g := by
    intro id g hg
    exact map_eq_some_iff.1 hg
  refine ⟨⟨h.placed.id_lt, fun e he => ?_, fun id g hg => ?_⟩,
    foldl_saveRow_nodup b.mgr h.rows_nodup, fun e g he hg => ?_⟩
  · obtain ⟨f, hf⟩ := h.placed.state e he
    refine ⟨{ f with needSave := false }, ?_⟩
    exact map_eq_some_iff.2 ⟨f, hf, rfl⟩
  · obtain ⟨f, hf, rfl⟩ := hstate id g hg
    exact h.placed.only id f hf
  · obtain ⟨f, hf, rfl⟩ := hstate _ g hg
    have hkept := h.kept e f he hf
    have hfind := h.find_saveToDB he hf
    exact ⟨hkept.ID, hkept.sound, fun _ => hfind⟩

/-! ## Requests -/

inductive Request
  | setReputation (faction : ℕ) (standing : ℤ) (incremental : Bool)
  | setVisible (faction : ℕ)
  | setVisibleTemplate (faction : ℕ)
  | setAtWar (repListID : ℕ) (on : Bool)
  | setInactive (repListID : ℕ) (on : Bool)
  | saveToDB

def serve (t : Rules F) (b : Book) : Request → Book
  | .setReputation faction standing incremental =>
    match t.store.lookupEntry faction with
    | none => b
    | some e => { b with mgr := (b.mgr.setReputation t e standing incremental).1 }
  | .setVisible faction =>
    match t.store.lookupEntry faction with
    | none => b
    | some e => { b with mgr := b.mgr.setVisible e }
  | .setVisibleTemplate faction => { b with mgr := b.mgr.setVisibleTemplate t faction }
  | .setAtWar repListID on => { b with mgr := b.mgr.setAtWar repListID on }
  | .setInactive repListID on => { b with mgr := b.mgr.setInactive repListID on }
  | .saveToDB => ⟨(b.mgr.saveToDB t b.rows).1, (b.mgr.saveToDB t b.rows).2⟩

/-- The player makes peace only where it lasts, and makes active only what is not inactive by
default. -/
def Lasts (t : Rules F) (b : Book) : Request → Prop
  | .setAtWar repListID false => ∀ e ∈ t.store.entries, e.reputationListID = repListID →
    ∀ f, b.mgr.factions repListID = some f →
      hasFlag f.flags (factionFlagInvisibleForced ||| factionFlagHidden) = false →
      hasFlag f.flags factionFlagAtWar = true → PeaceLasts t e f
  | .setInactive repListID false => ∀ e ∈ t.store.entries, e.reputationListID = repListID →
    ∀ f, b.mgr.factions repListID = some f → hasFlag f.flags factionFlagInactive = true →
      hasFlag (t.getDefaultStateFlags e) factionFlagInactive = false
  | _ => True

/-- A request that lasts keeps the invariant. -/
theorem Faithful.serve {b : Book} (h : Faithful t b) {r : Request} (hr : Lasts t b r) :
    Faithful t (serve t b r) := by
  cases r with
  | setReputation faction standing incremental =>
    rw [ReputationMgr.serve]
    split
    · exact h
    · rename_i e hlookup
      exact Faithful.setReputation h (lookupEntry_mem hlookup).1 standing incremental
  | setVisible faction =>
    rw [ReputationMgr.serve]
    split
    · exact h
    · rename_i e hlookup
      exact Faithful.setVisible h (lookupEntry_mem hlookup).1
  | setVisibleTemplate faction => exact Faithful.setVisibleTemplate h faction
  | setAtWar id on =>
    rw [ReputationMgr.serve, ReputationMgr.setAtWar]
    cases hf : b.mgr.factions id with
    | none => exact h
    | some f =>
      dsimp only
      obtain ⟨e, he, hid, -⟩ := h.placed.only id f hf
      subst hid
      split
      · exact h
      · rename_i hshown
        refine Faithful.setState h he ((h.kept e f he hf).setAtWar fun hon hwar => ?_)
        subst hon
        exact hr e he.1 (Int.toNat_of_nonneg he.2).symm f hf (Bool.eq_false_iff.2 hshown) hwar
  | setInactive id on =>
    rw [ReputationMgr.serve, ReputationMgr.setInactive]
    cases hf : b.mgr.factions id with
    | none => exact h
    | some f =>
      obtain ⟨e, he, hid, -⟩ := h.placed.only id f hf
      subst hid
      refine Faithful.setState h he ((h.kept e f he hf).setInactive fun hon hinactive => ?_)
      subst hon
      exact hr e he.1 (Int.toNat_of_nonneg he.2).symm f hf hinactive
  | saveToDB => exact h.saveToDB

/-- The state after saving and loading again. -/
def relog (t : Rules F) (b : Book) : ReputationMgr :=
  loadFromDB t (b.mgr.saveToDB t b.rows).2

/-- The standing and the flags at a list id. -/
def standingAndFlags (m : ReputationMgr) (repListID : ℕ) : Option (ℤ × Flags) :=
  (m.factions repListID).map fun f => (f.standing, f.flags)

/-- A relog leaves a faithful state as it is. -/
theorem Faithful.relog {b : Book} (h : Faithful t b) (id : ℕ) :
    (relog t b).standingAndFlags id = b.mgr.standingAndFlags id := by
  have hrows := h.saveToDB.rows_nodup
  rw [standingAndFlags, standingAndFlags]
  by_cases hlisted : ∃ e, Listed t e ∧ e.reputationListID.toNat = id
  · obtain ⟨e, he, rfl⟩ := hlisted
    obtain ⟨f, hf⟩ := h.placed.state e he
    obtain ⟨hmem, hfaction⟩ := mem_of_find (h.find_saveToDB he hf)
    obtain ⟨-, hstanding, hflags, -⟩ := loadedState_cases t e (newFaction t e) (savedRow e f)
    rw [ReputationMgr.relog, loadFromDB_row he hrows hmem hfaction, hf, map_some,
      map_some, hstanding]
    have hloaded : BitVec.ofNat 8 (savedRow e f).flags = f.flags := BitVec.ofNat_toNat 8 f.flags
    rw [hloaded] at hflags
    rw [(h.kept e f he hf).sound.loaded hflags]
    rfl
  · have hnone : ∀ e, Listed t e → e.reputationListID.toNat ≠ id :=
      fun e he hid => hlisted ⟨e, he, hid⟩
    rw [ReputationMgr.relog, loadFromDB_none _ hnone]
    cases hf : b.mgr.factions id with
    | none => rfl
    | some f =>
      obtain ⟨e, he, hid, -⟩ := h.placed.only id f hf
      exact absurd hid (hnone e he)

end ReputationMgr

open ReputationMgr in
/-- From any rows, in every run of lasting requests, a relog leaves the standing and the flags of
every faction as they are. -/
theorem reputation_relog {F : Type*} (t : Rules F)
    (hids : ∀ e, ReputationMgr.Listed t e → e.ID < 2 ^ 16)
    {rows : List Row} (hrows : (rows.map Row.faction).Nodup) (hpeace : NoDefaultPeace t rows)
    (rs : List Request) (hrs : Along (serve t) (Lasts t) ⟨loadFromDB t rows, rows⟩ rs) (id : ℕ) :
    (relog t (run (serve t) ⟨loadFromDB t rows, rows⟩ rs)).standingAndFlags id =
      (run (serve t) ⟨loadFromDB t rows, rows⟩ rs).mgr.standingAndFlags id := by
  have hstep : ∀ b r, Faithful t b → Lasts t b r → Faithful t (serve t b r) :=
    fun _ _ h hr => Faithful.serve h hr
  exact Faithful.relog (invariant_run hstep (faithful_loadFromDB hids hrows hpeace) hrs) id

/-- A faction at war by default, for the only race. -/
def warFaction : FactionEntry ℤ where
  ID := 1
  reputationListID := 0
  baseRepRaceMask := fun _ => 1
  baseRepClassMask := fun _ => 0
  baseRepValue := fun _ => 0
  reputationFlags := fun _ => 2
  team := 0
  spilloverRateIn := 0
  spilloverRateOut := 0
  spilloverMaxRankIn := 0

/-- The tables with that faction alone. -/
def warRules : Rules ℤ where
  store := ⟨[warFaction], by decide, by simp⟩
  raceMask := 1
  classMask := 1
  toFloat := id
  mul := (· * ·)
  isZero := (· == 0)
  toInt32 := id

open ReputationMgr in
/-- Peace with a faction that has been met lasts. -/
theorem reputation_relog_peace :
    (relog warRules (run (serve warRules) ⟨loadFromDB warRules [], []⟩
        [.setReputation 1 500 true, .setAtWar 0 false])).standingAndFlags 0 =
      some (500, factionFlagVisible) := by
  have hrows : (([] : List Row).map Row.faction).Nodup := nodup_nil
  have hwar : NoDefaultPeace warRules [] := by
    rintro e ⟨he, -⟩ - -
    rw [mem_singleton.1 he]
    exact .inl (by decide)
  have hlasts : Along (serve warRules) (Lasts warRules) ⟨loadFromDB warRules [], []⟩
      [.setReputation 1 500 true, .setAtWar 0 false] := by
    refine ⟨trivial, ?_, trivial⟩
    intro e he _ f hf _ _
    rw [mem_singleton.1 he]
    rw [← some.inj hf]
    exact ⟨.inl (by decide +kernel), .inl (by decide +kernel)⟩
  have hids : ∀ e, ReputationMgr.Listed warRules e → e.ID < 2 ^ 16 := by
    rintro e ⟨he, -⟩
    rw [mem_singleton.1 he]
    decide
  rw [reputation_relog warRules hids hrows hwar _ hlasts 0]
  decide +kernel

open ReputationMgr in
/-- Peace with a faction that is at war by default and not visible is forgotten : loading makes
peace only with visible factions. -/
theorem setAtWar_forgotten :
    (run (serve warRules) ⟨loadFromDB warRules [], []⟩ [.setAtWar 0 false]).mgr.standingAndFlags 0 =
      some (0, 0) ∧
    (relog warRules
      (run (serve warRules) ⟨loadFromDB warRules [], []⟩ [.setAtWar 0 false])).standingAndFlags 0 =
      some (0, factionFlagAtWar) := by
  have hids : listIDs warRules = [0] := by simp [listIDs, warRules, warFaction]
  refine ⟨by decide, ?_⟩
  rw [relog, saveToDB, hids]
  decide

end Reputation

end MistyWorld
