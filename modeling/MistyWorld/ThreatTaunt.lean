import MistyWorld.ThreatAlike

/-!
# Taunts

A taunt fills up the threat of the taunter, and keeps what it added as his temporary threat.
`tauntFadeOut` takes this back, but it looks for the taunter in the online list only. Between the
two, `resetAllAggro` sets the threat to 0 and leaves the temporary threat as it is.

What is left of the threat of a unit is what was added since the last reset that reached it
(`threatOn_run`). So the run with the taunt ends with the same threat as the run without it exactly
when this is the same for each unit, and the taunt is taken off the taunter once, by a reset or by
the fade-out (`Transparent`, `transparent_iff`). The taunt can change which units a reset reaches :
adding threat to the taunter also makes a reference for his owner, or looks for his status. Where
the last reset that reaches a unit is the same call, what is left of other units is the same, and
the taunter has to be online at the fade-out exactly if no reset has reached him
(`transparent_iff_returned`). It is the same call when he has no owner (`Alike.sinceReset_eq`).
-/

open Option Machine

namespace MistyWorld

namespace ThreatManager

variable {w : ThreatWorld} {m a b : ThreatManager ℚ} {u v : ℕ}

/-! ## Between the taunt and its fade-out -/

/-- What happens meanwhile. Threat is added as `_addThreat` does, which `ThreatManager::addThreat`
calls with what it has computed. A change of the status is that of the reference of a unit. -/
inductive Meanwhile
  | addThreat (w : ThreatWorld) (victim : ℕ) (threat : ℚ)
  | updateOnlineStatus (w : ThreatWorld) (unit : ℕ)
  | setOnlineOfflineState (unit : ℕ) (isOnline : Bool)
  | resetAllAggro (w : ThreatWorld)

/-- The pointer to the reference of a unit. -/
def pointerTo (m : ThreatManager ℚ) (u : ℕ) : Option ℕ :=
  m.getReferenceByTarget (m.threatList ++ m.offlineList) u

def meanwhile (m : ThreatManager ℚ) : Meanwhile → ThreatManager ℚ
  | .addThreat w victim threat => m.addThreat exact w victim threat
  | .updateOnlineStatus w unit => (m.pointerTo unit).elim m (m.updateOnlineStatus exact w)
  | .setOnlineOfflineState unit isOnline =>
    (m.pointerTo unit).elim m fun p => m.setOnlineOfflineState exact p isOnline
  | .resetAllAggro w => m.resetAllAggro exact w

def Meanwhile.isReset : Meanwhile → Bool
  | resetAllAggro _ => true
  | _ => false

/-- The threat that is added to a unit. -/
def Meanwhile.added (u : ℕ) : Meanwhile → ℚ
  | addThreat _ victim threat => if u = victim then threat else 0
  | _ => 0

/-- The taunter has no owner or charmer when his threat is set. -/
def Meanwhile.Unowned (u : ℕ) : Meanwhile → Prop
  | resetAllAggro w => w.owners u = []
  | _ => True

theorem Ordered.meanwhile (h : m.Ordered) (c : Meanwhile) : (m.meanwhile c).Ordered := by
  cases c with
  | addThreat w victim threat => exact h.addThreat victim threat
  | updateOnlineStatus w unit =>
    rw [ThreatManager.meanwhile]
    cases m.pointerTo unit with
    | none => exact h
    | some p => exact h.updateOnlineStatus p
  | setOnlineOfflineState unit isOnline =>
    rw [ThreatManager.meanwhile]
    cases m.pointerTo unit with
    | none => exact h
    | some p => exact h.setOnlineOfflineState p isOnline
  | resetAllAggro w => exact h.resetAllAggro

theorem tempOn_meanwhile (h : m.Ordered) (c : Meanwhile) (u : ℕ) :
    (m.meanwhile c).tempOn u = m.tempOn u := by
  cases c with
  | addThreat w victim threat => exact (moves_addThreat h w victim threat).temp u
  | updateOnlineStatus w unit =>
    rw [meanwhile]
    cases m.pointerTo unit with
    | none => rfl
    | some p => exact (moves_updateOnlineStatus h w p).temp u
  | setOnlineOfflineState unit isOnline =>
    rw [meanwhile]
    cases m.pointerTo unit with
    | none => rfl
    | some p => exact (moves_setOnlineOfflineState h p isOnline).temp u
  | resetAllAggro w => exact (zeroed_resetAllAggro h w).temp u

/-- A reset clears the threat of the units it reaches, and the other calls add to it. -/
theorem threatOn_meanwhile (h : m.Ordered) (c : Meanwhile) (u : ℕ) :
    (m.meanwhile c).threatOn u =
      if c.isReset ∧ (m.meanwhile c).isOnline u then 0 else m.threatOn u + c.added u := by
  cases c with
  | addThreat w victim threat =>
    rw [if_neg fun hc => Bool.false_ne_true hc.1, Meanwhile.added]
    refine ((moves_addThreat h w victim threat).threat u).trans ?_
    rw [Pi.single_apply]
  | updateOnlineStatus w unit =>
    rw [if_neg fun hc => Bool.false_ne_true hc.1, meanwhile]
    cases m.pointerTo unit with
    | none => exact (add_zero _).symm
    | some p => exact (moves_updateOnlineStatus h w p).threat u
  | setOnlineOfflineState unit isOnline =>
    rw [if_neg fun hc => Bool.false_ne_true hc.1, meanwhile]
    cases m.pointerTo unit with
    | none => exact (add_zero _).symm
    | some p => exact (moves_setOnlineOfflineState h p isOnline).threat u
  | resetAllAggro w =>
    have hreset := threatOn_resetAllAggro h w u
    have hadded : (Meanwhile.resetAllAggro w).added u = 0 := rfl
    rw [hadded, add_zero]
    simpa only [meanwhile, Meanwhile.isReset, true_and] using hreset

/-- Without an owner, no call looks at the threat of the taunter. -/
theorem Alike.meanwhile (h : Alike u a b) (ha : a.Ordered) (hb : b.Ordered) {c : Meanwhile}
    (hc : c.Unowned u) : Alike u (a.meanwhile c) (b.meanwhile c) := by
  have hoffline : a.offlineList = b.offlineList := congrArg (·.offlineList) h
  have hstatus : ∀ (f : ThreatManager ℚ → ℕ → ThreatManager ℚ) v,
      (∀ p, Alike u (f a p) (f b p)) →
        Alike u ((a.pointerTo v).elim a (f a)) ((b.pointerTo v).elim b (f b)) := fun f v hf => by
    rw [pointerTo, h.threatList, hoffline, h.getReferenceByTarget, pointerTo]
    cases b.getReferenceByTarget (b.threatList ++ b.offlineList) v with
    | none => exact h
    | some p => exact hf p
  cases c with
  | addThreat w victim threat => exact h.addThreatTo (blind_addOwners u w _) w victim threat
  | updateOnlineStatus w unit =>
    exact hstatus (fun m => m.updateOnlineStatus exact w) unit (h.updateOnlineStatus w)
  | setOnlineOfflineState unit isOnline =>
    exact hstatus (fun m p => m.setOnlineOfflineState exact p isOnline) unit
      (h.setOnlineOfflineState · isOnline)
  | resetAllAggro w => exact h.resetAllAggro ha hb hc

/-! ## What is left of the threat -/

/-- The calls after the last reset that reaches a unit, if one does. -/
def sinceReset (u : ℕ) : ThreatManager ℚ → List Meanwhile → Option (List Meanwhile)
  | _, [] => none
  | m, c :: cs =>
    match sinceReset u (m.meanwhile c) cs with
    | some later => some later
    | none => if c.isReset ∧ (m.meanwhile c).isOnline u then some cs else none

/-- The threat that calls add to a unit. -/
def addedBy (u : ℕ) (cs : List Meanwhile) : ℚ :=
  (cs.map (Meanwhile.added u)).sum

/-- What was added to a unit since the last reset that reached it : all, and the threat at the
start, if none did. -/
def remaining (u : ℕ) (m : ThreatManager ℚ) (cs : List Meanwhile) (start : ℚ) : ℚ :=
  (sinceReset u m cs).elim (start + addedBy u cs) (addedBy u)

theorem Ordered.run_meanwhile (h : m.Ordered) (cs : List Meanwhile) :
    (run ThreatManager.meanwhile m cs).Ordered :=
  run_of_invariant (fun _ c h => h.meanwhile c) cs h

theorem tempOn_run (h : m.Ordered) (cs : List Meanwhile) (u : ℕ) :
    (run meanwhile m cs).tempOn u = m.tempOn u := by
  induction cs generalizing m with
  | nil => rfl
  | cons c cs ih => rw [run_cons, ih (h.meanwhile c), tempOn_meanwhile h]

/-- The threat at the end of a run. -/
theorem threatOn_run (h : m.Ordered) (cs : List Meanwhile) (u : ℕ) :
    (run meanwhile m cs).threatOn u = remaining u m cs (m.threatOn u) := by
  induction cs generalizing m with
  | nil => exact (add_zero _).symm
  | cons c cs ih =>
    rw [run_cons, ih (h.meanwhile c), remaining, remaining, sinceReset]
    cases sinceReset u (m.meanwhile c) cs with
    | some later => rfl
    | none =>
      have hadded : addedBy u (c :: cs) = c.added u + addedBy u cs := List.sum_cons
      rw [elim_none, threatOn_meanwhile h]
      split_ifs with hreset
      · rw [elim_some, zero_add]
      · rw [elim_none, hadded, add_assoc]

/-- Without an owner, the last reset that reaches a unit is the same call. -/
theorem Alike.sinceReset_eq (h : Alike u a b) (ha : a.Ordered) (hb : b.Ordered) (v : ℕ)
    {cs : List Meanwhile} (hcs : ∀ c ∈ cs, c.Unowned u) : sinceReset v a cs = sinceReset v b cs := by
  induction cs generalizing a b with
  | nil => rfl
  | cons c cs ih =>
    have hc := h.meanwhile ha hb (hcs c List.mem_cons_self)
    have honline : (a.meanwhile c).isOnline v = (b.meanwhile c).isOnline v := by
      rw [isOnline, hc.threatList, hc.getReferenceByTarget, isOnline]
    rw [sinceReset, sinceReset, honline, ih hc (ha.meanwhile c) (hb.meanwhile c) fun c' hc' =>
      hcs c' (List.mem_cons_of_mem c hc')]

/-! ## The end of the taunt -/

/-- The run with a taunt, to its fade-out. -/
def taunted (w w' : ThreatWorld) (u : ℕ) (m : ThreatManager ℚ) (cs : List Meanwhile) :
    ThreatManager ℚ :=
  (run meanwhile (m.tauntApply exact w u) cs).tauntFadeOut exact w' u

/-- What the taunt has added, if no reset has reached the taunter. -/
def tauntLeft (w : ThreatWorld) (u : ℕ) (m : ThreatManager ℚ) (cs : List Meanwhile) : ℚ :=
  if sinceReset u (m.tauntApply exact w u) cs = none then m.tauntOf u else 0

/-- What the fade-out takes back. -/
def takenBack (w : ThreatWorld) (u : ℕ) (m : ThreatManager ℚ) (cs : List Meanwhile) : ℚ :=
  if (run meanwhile (m.tauntApply exact w u) cs).isOnline u then m.tauntOf u else 0

/-- What was added since the last reset is the same with and without the taunt, for each unit but
the taunter, and for him together with what is left of the taunt and what the fade-out takes
back. -/
structure Transparent (w : ThreatWorld) (u : ℕ) (m : ThreatManager ℚ) (cs : List Meanwhile) :
    Prop where
  other : ∀ v, v ≠ u →
    remaining v (m.tauntApply exact w u) cs (m.threatOn v) = remaining v m cs (m.threatOn v)
  taunter : remaining u (m.tauntApply exact w u) cs (m.threatOn u) + tauntLeft w u m cs =
    remaining u m cs (m.threatOn u) + takenBack w u m cs

/-- The taunt adds nothing, or the taunter is online at the fade-out exactly if no reset has reached
him. -/
def Returned (w : ThreatWorld) (u : ℕ) (m : ThreatManager ℚ) (cs : List Meanwhile) : Prop :=
  m.tauntOf u = 0 ∨ ((run meanwhile (m.tauntApply exact w u) cs).isOnline u = true ↔
    sinceReset u (m.tauntApply exact w u) cs = none)

section Fade

variable {cs : List Meanwhile}

theorem threatOn_taunted_of_ne (h : m.Ordered) (w w' : ThreatWorld) (htemp : m.tempOn u = 0)
    (hv : v ≠ u) : (taunted w w' u m cs).threatOn v =
      remaining v (m.tauntApply exact w u) cs (m.threatOn v) := by
  have happly : (m.tauntApply exact w u).Ordered := h.tauntApply u
  rw [taunted, threatOn_tauntFadeOut (happly.run_meanwhile cs), Pi.single_eq_of_ne hv, sub_zero,
    threatOn_run happly, (tauntApply_spec h w htemp).1, Pi.single_eq_of_ne hv, add_zero]

/-- The threat of the taunter : a reset clears what the taunt has added, and the fade-out takes it
back where the taunter is online. -/
theorem threatOn_taunted_self (h : m.Ordered) (w w' : ThreatWorld) (htemp : m.tempOn u = 0) :
    (taunted w w' u m cs).threatOn u = remaining u (m.tauntApply exact w u) cs (m.threatOn u) +
      tauntLeft w u m cs - takenBack w u m cs := by
  obtain ⟨hthreat, htaunt⟩ := tauntApply_spec h w htemp
  have happly : (m.tauntApply exact w u).Ordered := h.tauntApply u
  have hback : (if (run meanwhile (m.tauntApply exact w u) cs).isOnline u then
      (run meanwhile (m.tauntApply exact w u) cs).tempOn u else 0) = takenBack w u m cs := by
    rw [tempOn_run happly, htaunt, takenBack]
  rw [taunted, threatOn_tauntFadeOut (happly.run_meanwhile cs), Pi.single_eq_same, hback,
    threatOn_run happly, hthreat, Pi.single_eq_same, remaining, remaining, tauntLeft]
  cases sinceReset u (m.tauntApply exact w u) cs with
  | none => rw [if_pos rfl, elim_none, elim_none, add_right_comm]
  | some later => rw [if_neg nofun, elim_some, elim_some, add_zero]

/-- The threat is that of the run without the taunt exactly when the taunt is transparent. -/
theorem transparent_iff (h : m.Ordered) (w w' : ThreatWorld) (htemp : m.tempOn u = 0) :
    (∀ v, (taunted w w' u m cs).threatOn v = (run meanwhile m cs).threatOn v) ↔
      Transparent w u m cs := by
  constructor
  · intro hall
    refine ⟨fun v hv => ?_, ?_⟩
    · rw [← threatOn_taunted_of_ne h w w' htemp hv, hall, threatOn_run h]
    · rw [← threatOn_run h, ← hall u, threatOn_taunted_self h w w' htemp, sub_add_cancel]
  · rintro ⟨hother, hself⟩ v
    by_cases hv : v = u
    · rw [hv, threatOn_taunted_self h w w' htemp, hself, add_sub_cancel_right, threatOn_run h]
    · rw [threatOn_taunted_of_ne h w w' htemp hv, hother v hv, threatOn_run h]

/-- Where the last reset that reaches each unit is the same call with and without the taunt. -/
theorem transparent_iff_returned
    (hsame : ∀ v, sinceReset v (m.tauntApply exact w u) cs = sinceReset v m cs) :
    Transparent w u m cs ↔ Returned w u m cs := by
  have hremaining : ∀ v start,
      remaining v (m.tauntApply exact w u) cs start = remaining v m cs start := fun v start => by
    rw [remaining, remaining, hsame]
  have hself : tauntLeft w u m cs = takenBack w u m cs ↔ Returned w u m cs := by
    rw [tauntLeft, takenBack, Returned]
    by_cases honline : (run meanwhile (m.tauntApply exact w u) cs).isOnline u = true <;>
    by_cases hreset : sinceReset u (m.tauntApply exact w u) cs = none
    · simp [honline, hreset]
    · simp [honline, hreset, eq_comm]
    · simp [honline, hreset]
    · simp [honline, hreset]
  rw [← hself]
  exact ⟨fun h => add_left_cancel (hremaining u _ ▸ h.taunter),
    fun h => ⟨fun v _ => hremaining v _, by rw [hremaining, h]⟩⟩

/-- Without a taunt, threat that is only added or reset is not negative. -/
theorem threatOn_run_nonneg (h : m.Ordered) (hv : 0 ≤ m.threatOn v)
    (hadded : ∀ c ∈ cs, 0 ≤ c.added v) : 0 ≤ (run meanwhile m cs).threatOn v := by
  induction cs generalizing m with
  | nil => exact hv
  | cons c cs ih =>
    refine ih (h.meanwhile c) ?_ fun c' hc' => hadded c' (List.mem_cons_of_mem c hc')
    rw [threatOn_meanwhile h]
    split_ifs
    · exact le_refl 0
    · exact add_nonneg hv (hadded c List.mem_cons_self)

end Fade

/-- The creature attacks unit 1, who has twice the threat of unit 2. -/
def twoEnemies : List (Request ℚ) :=
  [.addThreat plainWorld 1 100, .addThreat plainWorld 2 50, .getHostilTarget fun _ => {}]

end ThreatManager

end MistyWorld
