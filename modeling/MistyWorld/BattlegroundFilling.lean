import MistyWorld.BattlegroundQueue

/-!
# Filling running battlegrounds

`FillPlayersToBG` selects groups of both factions for a running battleground. With an invitation
type it then evens out the room that is left : it kicks groups from the pool of the faction with
less room, and goes on where the iterator of its queue stopped.

A group that is passed or kicked never comes back, so what a pool has and what is in front of its
iterator is a part of the queue in its order (`Filling.Kept`). A round keeps this, and no pool is
larger than the room of its faction, because the count it is filled up to is the room less what the
other faction has left. The loop ends, and its end says how the room is spread
(`fillPlayersToBG_spec`).
-/

namespace MistyWorld

namespace BattlegroundQueue

namespace Filling

/-- The loop of `FillPlayersToBG`, when it ends within the given number of rounds. -/
def balance? (q : BattlegroundQueue) (free : Team → ℕ) : ℕ → Filling → Option Filling
  | 0, s => if s.Unbalanced free then none else some s
  | rounds + 1, s =>
    if s.Unbalanced free then
      let next := s.round q free
      if next.2 then balance? q free rounds next.1 else some next.1
    else some s

variable {q : BattlegroundQueue} {s : Filling} {team : Team}

/-- The loop ends. -/
theorem Counted.balance?_eq (free : Team → ℕ) : ∀ {n : ℕ} {s : Filling}, s.Counted q →
    s.rounds ≤ n → s.balance? q free n = some (s.balance q free n)
  | 0, s, h, hn => by
    rw [balance?, if_neg (h.not_unbalanced (Nat.le_zero.1 hn) free), balance]
  | n + 1, s, h, hn => by
    rw [balance?, balance]
    by_cases hs : s.Unbalanced free
    · obtain ⟨hcounted, hless⟩ := h.round hs
      rw [if_pos hs, if_pos hs]
      by_cases hnext : (s.round q free).2 = true
      · rw [if_pos hnext, if_pos hnext]
        have hlt := hless hnext
        exact hcounted.balance?_eq free (by omega)
      · rw [if_neg hnext, if_neg hnext]
    · rw [if_neg hs, if_neg hs]

/-! ## What the pools have -/

/-- The pools and iterators go through the queues in order, and no pool is too large. -/
structure Kept (q : BattlegroundQueue) (bracket : BracketId) (free : Team → ℕ) (s : Filling) :
    Prop where
  counted : s.Counted q
  le : ∀ team, (s.pools team).playerCount ≤ free team
  sublist : ∀ team, ((s.pools team).selectedGroups ++ s.rest team).Sublist
    (q.queuedGroups (bracket, .normal team))
  waiting : ∀ team, ∀ g ∈ (s.pools team).selectedGroups, q.isInvited g = false

variable {bracket : BracketId} {free : Team → ℕ}

/-- A write to one faction keeps this when it does for this faction. -/
theorem Kept.update (h : s.Kept q bracket free) {pool : SelectionPool} (rest : List ℕ)
    (hcounted : pool.Counted q.size) (hle : pool.playerCount ≤ free team)
    (hsublist : (pool.selectedGroups ++ rest).Sublist
      (q.queuedGroups (bracket, .normal team)))
    (hwaiting : ∀ g ∈ pool.selectedGroups, q.isInvited g = false) :
    Kept q bracket free
      ⟨Function.update s.pools team pool, Function.update s.rest team rest⟩ where
  counted := h.counted.update hcounted
  le team' := by
    by_cases hteam : team' = team
    · subst hteam
      simpa using hle
    · simpa [hteam] using h.le team'
  sublist team' := by
    by_cases hteam : team' = team
    · subst hteam
      simpa using hsublist
    · simpa [hteam] using h.sublist team'
  waiting team' := by
    by_cases hteam : team' = team
    · subst hteam
      simpa using hwaiting
    · simpa [hteam] using h.waiting team'

theorem kickGroup_sublist (players : ℕ → ℕ) (pool : SelectionPool) (size : ℕ) :
    (pool.kickGroup players size).1.playerCount ≤ pool.playerCount ∧
      (pool.kickGroup players size).1.selectedGroups.Sublist pool.selectedGroups := by
  rw [SelectionPool.kickGroup]
  split
  · exact ⟨Nat.sub_le _ _, List.eraseIdx_sublist _ _⟩
  · exact ⟨Nat.le_refl _, List.Sublist.refl _⟩

theorem Kept.kick (h : s.Kept q bracket free) (team : Team) (size : ℕ) :
    (s.kick q team size).Kept q bracket free := by
  obtain ⟨hle, hsublist⟩ := kickGroup_sublist q.size (s.pools team) size
  have hkept := h.update (s.rest team) ((h.counted team).kickGroup size).1
    (hle.trans (h.le team)) ((hsublist.append_right _).trans (h.sublist team))
    fun g hg => h.waiting team g (hsublist.subset hg)
  rwa [Function.update_eq_self] at hkept

/-- What filling a pool does. -/
theorem fillPool_sublist (q : BattlegroundQueue) (desiredCount : ℕ) :
    ∀ (l : List ℕ) (pool : SelectionPool),
      (q.fillPool desiredCount pool l).1.playerCount ≤ max pool.playerCount desiredCount ∧
      ((q.fillPool desiredCount pool l).1.selectedGroups ++
        (q.fillPool desiredCount pool l).2).Sublist (pool.selectedGroups ++ l) ∧
      ∀ g ∈ (q.fillPool desiredCount pool l).1.selectedGroups,
        g ∈ pool.selectedGroups ∨ q.isInvited g = false
  | [], pool => ⟨le_max_left _ _, List.Sublist.refl _, fun _ => .inl⟩
  | g :: l, pool => by
    rw [fillPool]
    by_cases hadd : (q.info g).isInvitedToBGInstanceGUID = 0 ∧
        pool.playerCount + (q.info g).players.card ≤ desiredCount
    · rw [SelectionPool.addGroup, if_pos hadd]
      obtain ⟨hle, hsublist, hwaiting⟩ := fillPool_sublist q desiredCount l
        { selectedGroups := pool.selectedGroups ++ [g]
          playerCount := pool.playerCount + (q.info g).players.card }
      refine ⟨hle.trans ?_, ?_, fun g' hg' => ?_⟩
      · exact max_le (hadd.2.trans (le_max_right _ _)) (le_max_right _ _)
      · simpa using hsublist
      · rcases hwaiting g' hg' with hg' | hg'
        · rcases List.mem_append.1 hg' with hg' | hg'
          · exact .inl hg'
          · obtain rfl := List.mem_singleton.1 hg'
            exact .inr (by simp [isInvited, hadd.1])
        · exact .inr hg'
    · rw [SelectionPool.addGroup, if_neg hadd]
      split
      · obtain ⟨hle, hsublist, hwaiting⟩ := fillPool_sublist q desiredCount l pool
        exact ⟨hle, hsublist.trans ((List.sublist_cons_self g l).append_left _), hwaiting⟩
      · exact ⟨le_max_left _ _, List.Sublist.refl _, fun _ => .inl⟩

theorem Kept.fill (h : s.Kept q bracket free) {desiredCount : ℕ} (hle : desiredCount ≤ free team) :
    (s.fill q team desiredCount).Kept q bracket free := by
  obtain ⟨hcount, hsublist, hwaiting⟩ :=
    fillPool_sublist q desiredCount (s.rest team) (s.pools team)
  exact h.update _ (fillPool_spec q desiredCount (s.rest team) (s.pools team) (h.counted team)).1
    (hcount.trans (max_le (h.le team) hle)) (hsublist.trans (h.sublist team))
    fun g hg => (hwaiting g hg).elim (h.waiting team g) id

theorem Kept.diff_nonneg (h : s.Kept q bracket free) (team : Team) : 0 ≤ s.diff free team := by
  have hle := h.le team
  rw [diff]
  omega

/-- A round keeps the pools within their room. -/
theorem Kept.round (h : s.Kept q bracket free) : (s.round q free).1.Kept q bracket free := by
  rw [Filling.round]
  generalize (if s.diff free .alliance < s.diff free .horde then Team.alliance else .horde) = team
  generalize (s.diff free team.other - s.diff free team).toNat = size
  have hdesired : (free team - s.diff free team.other).toNat ≤ free team := by
    have hnonneg := h.diff_nonneg team.other
    omega
  generalize (free team - s.diff free team.other).toNat = desiredCount at hdesired
  have hs' : ∀ more : Bool, ∃ s', (if more then (s.kick q team size).fill q team desiredCount
      else s.kick q team size) = s' ∧ s'.Kept q bracket free := by
    rintro (_ | _)
    · exact ⟨_, rfl, h.kick team size⟩
    · exact ⟨_, rfl, (h.kick team size).fill hdesired⟩
  obtain ⟨s', heq, hkept⟩ := hs' ((s.pools team).kickGroup q.size size).2
  rw [heq]
  split_ifs
  · exact hkept
  · exact hkept.kick team.other size
  · exact hkept

/-- When a round ends the loop, the pool of a faction is empty, and it has hardly more room than the
other one. -/
theorem round_end (h : (s.round q free).2 = false) :
    ∃ team, ((s.round q free).1.pools team).playerCount = 0 ∧
      free team ≤ s.diff free team.other + 1 ∧
      (s.round q free).1.pools team.other = s.pools team.other := by
  rw [Filling.round] at h ⊢
  generalize (if s.diff free .alliance < s.diff free .horde then Team.alliance else .horde) = team
    at h ⊢
  generalize (s.diff free team.other - s.diff free team).toNat = size at h ⊢
  generalize (free team - s.diff free team.other).toNat = desiredCount at h ⊢
  have hs' : ∀ more : Bool, ∃ s', (if more then (s.kick q team size).fill q team desiredCount
      else s.kick q team size) = s' ∧ s'.pools team.other = s.pools team.other := by
    rintro (_ | _) <;> simp [Filling.kick, Filling.fill, Team.other_ne]
  obtain ⟨s', heq, hother⟩ := hs' ((s.pools team).kickGroup q.size size).2
  rw [heq] at h ⊢
  split_ifs at h ⊢ with hcount hend
  exact ⟨team, hcount, hend, hother⟩

theorem Kept.start (q : BattlegroundQueue) (bracket : BracketId) (free : Team → ℕ) :
    (start q bracket free).Kept q bracket free := by
  have hempty : Kept q bracket free
      ⟨fun _ => {}, fun team => q.queuedGroups (bracket, .normal team)⟩ :=
    ⟨fun _ => rfl, fun _ => Nat.zero_le _, fun _ => List.Sublist.refl _, fun _ _ hg => nomatch hg⟩
  exact (hempty.fill (Nat.le_refl _)).fill (Nat.le_refl _)

end Filling

/-! ## The end of the loop -/

/-- The room that is left for a faction. -/
def room (free : Team → ℕ) (pools : SelectionPools) (team : Team) : ℤ :=
  free team - (pools team).playerCount

/-- The factions have about the same room, or no group was found that could change it. -/
def Even (free : Team → ℕ) (pools : SelectionPools) : Prop :=
  |room free pools .alliance - room free pools .horde| ≤ 1 ∨
    (∀ team, (pools team).selectedGroups = []) ∨
    ∃ team, room free pools team < room free pools team.other ∧ (pools team).selectedGroups = []

namespace Filling

variable {q : BattlegroundQueue} {s s' : Filling} {bracket : BracketId} {free : Team → ℕ}

theorem Kept.eq_nil (h : s.Kept q bracket free)
    (hne : ∀ team, ∀ g ∈ q.queuedGroups (bracket, .normal team), 0 < q.size g) {team : Team}
    (hcount : (s.pools team).playerCount = 0) : (s.pools team).selectedGroups = [] := by
  refine List.eq_nil_iff_forall_not_mem.2 fun g hg => ?_
  have hsum := h.counted team
  rw [SelectionPool.Counted, hcount, eq_comm,
    List.sum_eq_zero_iff_forall_eq_nat] at hsum
  have hpos := hne team g ((h.sublist team).subset (List.mem_append_left _ hg))
  have hzero := hsum _ (List.mem_map_of_mem hg)
  omega

/-- Where the loop ends, the room is even. -/
theorem Kept.even (hne : ∀ team, ∀ g ∈ q.queuedGroups (bracket, .normal team), 0 < q.size g) :
    ∀ {n : ℕ} {s : Filling}, s.Kept q bracket free → s.balance? q free n = some s' →
      s'.Kept q bracket free ∧ Even free s'.pools := by
  have hstop : ∀ {s : Filling}, s.Kept q bracket free → ¬ s.Unbalanced free →
      Even free s.pools := by
    intro s h hs
    by_cases hdiff : |room free s.pools .alliance - room free s.pools .horde| ≤ 1
    · exact .inl hdiff
    · have hzero : ¬ (0 < (s.pools .horde).playerCount ∨ 0 < (s.pools .alliance).playerCount) :=
        fun hpos => hs ⟨not_le.1 hdiff, hpos⟩
      refine .inr (.inl fun team => h.eq_nil hne ?_)
      cases team <;> omega
  intro n
  induction n with
  | zero =>
    intro s h heq
    rw [balance?] at heq
    split_ifs at heq with hs
    obtain rfl := Option.some.inj heq
    exact ⟨h, hstop h hs⟩
  | succ n ih =>
    intro s h heq
    rw [balance?] at heq
    by_cases hs : s.Unbalanced free
    · rw [if_pos hs] at heq
      by_cases hnext : (s.round q free).2 = true
      · rw [if_pos hnext] at heq
        exact ih h.round heq
      · rw [if_neg hnext] at heq
        obtain rfl := Option.some.inj heq
        obtain ⟨team, hcount, hroom, hother⟩ := round_end (Bool.eq_false_iff.2 hnext)
        refine ⟨h.round, ?_⟩
        have hself : room free (s.round q free).1.pools team = free team := by
          rw [room, hcount, Nat.cast_zero, sub_zero]
        have hrest : room free (s.round q free).1.pools team.other = s.diff free team.other := by
          rw [room, hother, diff]
        by_cases hlt : room free (s.round q free).1.pools team <
            room free (s.round q free).1.pools team.other
        · exact .inr (.inr ⟨team, hlt, h.round.eq_nil hne hcount⟩)
        · refine .inl ?_
          have habs : |room free (s.round q free).1.pools team -
              room free (s.round q free).1.pools team.other| ≤ 1 := by
            rw [hself, hrest, abs_le]
            omega
          cases team with
          | alliance => exact habs
          | horde => rwa [abs_sub_comm]
    · rw [if_neg hs] at heq
      obtain rfl := Option.some.inj heq
      exact ⟨h, hstop h hs⟩

end Filling

open Filling in
/-- `FillPlayersToBG` ends. Its pools are counted, fit into the room of their faction and have
groups that wait in its queue, and with an invitation type the room that is left is even. -/
theorem fillPlayersToBG_spec (q : BattlegroundQueue) (bracket : BracketId) (free : Team → ℕ)
    (invitationType : ℕ)
    (hne : ∀ team, ∀ g ∈ q.queuedGroups (bracket, .normal team), 0 < q.size g) :
    (∃ rounds s, (start q bracket free).balance? q free rounds = some s ∧
      (invitationType ≠ 0 → q.fillPlayersToBG bracket free invitationType = s.pools)) ∧
    (∀ team, let pool := q.fillPlayersToBG bracket free invitationType team
      pool.playerCount = (pool.selectedGroups.map q.size).sum ∧ pool.playerCount ≤ free team ∧
        pool.selectedGroups.Sublist (q.queuedGroups (bracket, .normal team)) ∧
        ((q.queuedGroups (bracket, .normal team)).Nodup → pool.selectedGroups.Nodup) ∧
        ∀ g ∈ pool.selectedGroups, q.isInvited g = false) ∧
    (invitationType ≠ 0 → Even free (q.fillPlayersToBG bracket free invitationType)) := by
  have hstart := Kept.start q bracket free
  have hends := hstart.counted.balance?_eq free (Nat.le_refl (start q bracket free).rounds)
  obtain ⟨hkept, heven⟩ := hstart.even hne hends
  have hpools : invitationType ≠ 0 → q.fillPlayersToBG bracket free invitationType =
      ((start q bracket free).balance q free (start q bracket free).rounds).pools :=
    fun htype => if_neg htype
  have hfilled : ∃ s : Filling, s.Kept q bracket free ∧
      q.fillPlayersToBG bracket free invitationType = s.pools := by
    by_cases htype : invitationType = 0
    · exact ⟨_, hstart, if_pos htype⟩
    · exact ⟨_, hkept, hpools htype⟩
  obtain ⟨s, hs, heq⟩ := hfilled
  refine ⟨⟨_, _, hends, hpools⟩, fun team => ?_, fun htype => hpools htype ▸ heven⟩
  have hsublist := (List.sublist_append_left _ _).trans (hs.sublist team)
  rw [heq]
  exact ⟨hs.counted team, hs.le team, hsublist, hsublist.nodup, hs.waiting team⟩

/-- A queue with a pair of the alliance and two single players of the horde. -/
def pairAgainstTwo : BattlegroundQueue where
  groups g := if g = 1 then some { players := {1, 2} }
    else some { players := {g + 10}, team := .horde }
  queuedGroups i := match i.2 with
    | .normal .alliance => [1]
    | .normal .horde => [2, 3]
    | .premade _ => []

theorem fillPlayersToBG_pair :
    Even (fun _ => 2) (pairAgainstTwo.fillPlayersToBG 0 (fun _ => 2) 1) ∧
      ((pairAgainstTwo.fillPlayersToBG 0 (fun _ => 2) 1) .horde).selectedGroups.Sublist [2, 3] := by
  obtain ⟨-, hpools, heven⟩ := fillPlayersToBG_spec pairAgainstTwo 0 (fun _ => 2) 1 (by
    intro team g hg
    cases team with
    | alliance =>
      obtain rfl := List.mem_singleton.1 hg
      decide
    | horde =>
      rcases List.mem_pair.1 hg with rfl | rfl <;> decide)
  exact ⟨heven (by decide), (hpools .horde).2.2.1⟩

end BattlegroundQueue

end MistyWorld
