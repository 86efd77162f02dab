import MistyWorld.BattlegroundQueue

/-!
# The queues of battlegrounds are consistent

A state of a `BattlegroundQueue` is `Consistent` when its groups stand once in the queues, in one of
their faction, and have the players that are mapped to them. Joining, leaving and every match that
an update finds keep this. Matches that put a group into another queue are `Consistent.move` :
premade groups keep their faction, a skirmish sets it before the move, a rated arena after it.

A skirmish that moves more than one group uses an iterator that is no longer valid
(`undefined_update`). In all other runs, a queued player is one of the players of his group, and the
group stands once in the queues, in one of its faction. `RemovePlayer` finds it there, and removes it
with its last player (`queue_run`), and rated teams that are not invited with any player
(`Consistent.removePlayer_rated`).
-/

open Option Function List Machine Queues Word

namespace MistyWorld

namespace BattlegroundQueue

/-! ## The invariant -/

/-- The faction of a group. -/
def team? (q : BattlegroundQueue) (g : ℕ) : Option Team :=
  (q.groups g).map GroupQueueInfo.team

/-- The players of a group. -/
def players? (q : BattlegroundQueue) (g : ℕ) : Option (Finset ℕ) :=
  (q.groups g).map GroupQueueInfo.players

/-- Groups stand once in the queues, in one of their faction, all groups are there, and the players
are mapped to the groups that have them. -/
structure Consistent (q : BattlegroundQueue) : Prop where
  distinct : Distinct q.queuedGroups
  side : ∀ {i g}, g ∈ q.queuedGroups i → q.team? g = some i.2.team
  placed : ∀ {g ps}, q.players? g = some ps → ∃ i, g ∈ q.queuedGroups i
  fresh : ∀ {g ps}, q.players? g = some ps → g < q.nextGroup
  queued : ∀ {p g}, q.queuedPlayers p = some g ↔ ∃ ps, q.players? g = some ps ∧ p ∈ ps

theorem consistent_empty : Consistent {} where
  distinct := distinct_nil
  side h := absurd h not_mem_nil
  placed h := by simp [players?] at h
  fresh h := by simp [players?] at h
  queued := by simp [players?]

variable {q q' : BattlegroundQueue} {g g' guid : ℕ} {i j : QueueIndex} {team : Team}
  {f : GroupQueueInfo → GroupQueueInfo}

theorem team?_modify : (q.modify g f).team? g' =
    if g' = g then (q.groups g).map fun ginfo => (f ginfo).team else q.team? g' := by
  by_cases hg : g' = g
  · simp [team?, modify, hg, Function.comp_def]
  · simp [team?, modify, hg]

theorem players?_modify : (q.modify g f).players? g' =
    if g' = g then (q.groups g).map fun ginfo => (f ginfo).players else q.players? g' := by
  by_cases hg : g' = g
  · simp [players?, modify, hg, Function.comp_def]
  · simp [players?, modify, hg]

theorem info_team (h : q.team? g = some team) : (q.info g).team = team := by
  obtain ⟨ginfo, hginfo, rfl⟩ := map_eq_some_iff.1 h
  rw [info, hginfo, getD_some]

theorem info_players {ps : Finset ℕ} (h : q.players? g = some ps) : (q.info g).players = ps := by
  obtain ⟨ginfo, hginfo, rfl⟩ := map_eq_some_iff.1 h
  rw [info, hginfo, getD_some]

theorem Consistent.live (h : Consistent q) (hg : g ∈ q.queuedGroups i) :
    ∃ ps, q.players? g = some ps := by
  obtain ⟨ginfo, hginfo, -⟩ := map_eq_some_iff.1 (h.side hg)
  exact ⟨ginfo.players, by rw [players?, hginfo, map_some]⟩

/-- Groups keep their players. -/
structure SamePlayers (q q' : BattlegroundQueue) : Prop where
  next : q'.nextGroup = q.nextGroup
  queuedPlayers : q'.queuedPlayers = q.queuedPlayers
  players : ∀ g, q'.players? g = q.players? g

theorem SamePlayers.refl (q : BattlegroundQueue) : SamePlayers q q :=
  ⟨rfl, rfl, fun _ => rfl⟩

theorem SamePlayers.trans {q'' : BattlegroundQueue} (h : SamePlayers q q')
    (h' : SamePlayers q' q'') : SamePlayers q q'' :=
  ⟨h'.next.trans h.next, h'.queuedPlayers.trans h.queuedPlayers,
    fun g => (h'.players g).trans (h.players g)⟩

theorem samePlayers_modify (hf : ∀ ginfo, (f ginfo).players = ginfo.players) :
    SamePlayers q (q.modify g f) := by
  refine ⟨rfl, rfl, fun g' => ?_⟩
  rw [players?_modify]
  split
  next hg =>
    rw [hg, players?]
    simp only [hf]
  next => rfl

theorem samePlayers_setQueue {queue : List ℕ} : SamePlayers q (q.setQueue i queue) :=
  ⟨rfl, rfl, fun _ => rfl⟩

theorem Consistent.of_same (h : Consistent q) (hsame : SamePlayers q q')
    (hdistinct : Distinct q'.queuedGroups)
    (hside : ∀ {i g}, g ∈ q'.queuedGroups i → q'.team? g = some i.2.team)
    (hplaced : ∀ {i g}, g ∈ q.queuedGroups i → ∃ j, g ∈ q'.queuedGroups j) : Consistent q' where
  distinct := hdistinct
  side := hside
  placed hps := by
    obtain ⟨i, hi⟩ := h.placed ((hsame.players _).symm.trans hps)
    exact hplaced hi
  fresh hps := by
    rw [hsame.next]
    exact h.fresh ((hsame.players _).symm.trans hps)
  queued := by
    intro p g
    rw [hsame.queuedPlayers, hsame.players]
    exact h.queued

/-- A group is moved to another queue, and to its faction. -/
theorem Consistent.move (h : Consistent q) (hsame : SamePlayers q q') (hg : g ∈ q.queuedGroups i)
    (hij : i ≠ j) (hqueues : q'.queuedGroups = Function.update
      (Function.update q.queuedGroups j (g :: q.queuedGroups j)) i ((q.queuedGroups i).erase g))
    (hteam : ∀ g', q'.team? g' = if g' = g then some j.2.team else q.team? g') : Consistent q' := by
  have hmem : ∀ {g' k}, g' ∈ q'.queuedGroups k ↔
      (g' = g ∧ k = j) ∨ (g' ≠ g ∧ g' ∈ q.queuedGroups k) := by
    intro g' k
    rw [hqueues]
    exact h.distinct.mem_move hg hij (List.Perm.refl _)
  refine h.of_same hsame (hqueues ▸ h.distinct.move hg hij (List.Perm.refl _)) ?_ ?_
  · intro k g' hg'
    rw [hteam]
    rcases hmem.1 hg' with ⟨heq, rfl⟩ | ⟨hne, hk⟩
    · exact if_pos heq
    · exact (if_neg hne).trans (h.side hk)
  · intro k g' hk
    by_cases heq : g' = g
    · exact ⟨j, hmem.2 (.inl ⟨heq, rfl⟩)⟩
    · exact ⟨k, hmem.2 (.inr ⟨heq, hk⟩)⟩

/-! ## Joining -/

theorem foldl_update_some (l : List ℕ) (m : ℕ → Option ℕ) (p : ℕ) :
    l.foldl (fun m guid => Function.update m guid (some g)) m p =
      if p ∈ l then some g else m p := by
  induction l generalizing m with
  | nil => simp
  | cons guid l ih =>
    rw [foldl_cons, ih]
    by_cases hp : p ∈ l
    · simp [hp]
    · by_cases heq : p = guid
      · simp [heq]
      · simp [hp, heq]

theorem players?_addGroup (join : QueueJoin) : (q.addGroup join).players? g =
    if g = q.nextGroup then some join.members.toFinset else q.players? g := by
  by_cases hg : g = q.nextGroup
  · simp [players?, addGroup, hg, QueueJoin.ginfo]
  · simp [players?, addGroup, hg]

theorem team?_addGroup (join : QueueJoin) : (q.addGroup join).team? g =
    if g = q.nextGroup then some join.leaderTeam else q.team? g := by
  by_cases hg : g = q.nextGroup
  · simp [team?, addGroup, hg, QueueJoin.ginfo]
  · simp [team?, addGroup, hg]

theorem index_team (join : QueueJoin) : join.index.2.team = join.leaderTeam := by
  rw [QueueJoin.index]
  split <;> rfl

theorem Consistent.not_mem_next (h : Consistent q) (i : QueueIndex) :
    q.nextGroup ∉ q.queuedGroups i := by
  intro hg
  obtain ⟨ps, hps⟩ := h.live hg
  exact absurd (h.fresh hps) (Nat.lt_irrefl _)

theorem Consistent.addGroup (h : Consistent q) {join : QueueJoin}
    (hjoin : ∀ guid ∈ join.members, q.queuedPlayers guid = none) :
    Consistent (q.addGroup join) := by
  have hmem : ∀ {g i}, g ∈ (q.addGroup join).queuedGroups i ↔
      (i = join.index ∧ g = q.nextGroup) ∨ g ∈ q.queuedGroups i := by
    intro g i
    rw [BattlegroundQueue.addGroup, mem_update, mem_append, mem_singleton]
    by_cases hi : i = join.index
    · simp [hi, or_comm]
    · simp [hi]
  have hnext : q.players? q.nextGroup = none := by
    by_contra hps
    obtain ⟨ps, hps⟩ := ne_none_iff_exists'.1 hps
    exact absurd (h.fresh hps) (Nat.lt_irrefl _)
  constructor
  · exact h.distinct.insert (perm_append_singleton _ _) h.not_mem_next
  · intro i g hg
    rw [team?_addGroup]
    rcases hmem.1 hg with ⟨rfl, rfl⟩ | hg
    · rw [if_pos rfl, index_team]
    · have hne : g ≠ q.nextGroup := fun heq => h.not_mem_next i (heq ▸ hg)
      rw [if_neg hne]
      exact h.side hg
  · intro g ps hps
    rw [players?_addGroup] at hps
    split at hps
    next heq => exact ⟨join.index, hmem.2 (.inl ⟨rfl, heq⟩)⟩
    next =>
      obtain ⟨i, hi⟩ := h.placed hps
      exact ⟨i, hmem.2 (.inr hi)⟩
  · intro g ps hps
    rw [players?_addGroup] at hps
    split at hps
    next heq => exact heq ▸ Nat.lt_succ_self _
    next => exact Nat.lt_succ_of_lt (h.fresh hps)
  · intro p g
    rw [players?_addGroup]
    change join.members.foldl _ q.queuedPlayers p = some g ↔ _
    rw [foldl_update_some]
    by_cases hp : p ∈ join.members
    · have hnone : ∀ ps, q.players? g = some ps → p ∉ ps := fun ps hps hmem => by
        have hsome := h.queued.2 ⟨ps, hps, hmem⟩
        rw [hjoin p hp] at hsome
        exact absurd hsome (by simp)
      rw [if_pos hp]
      by_cases heq : g = q.nextGroup
      · simp [heq, hp]
      · simpa [heq, Ne.symm heq] using hnone
    · rw [if_neg hp, h.queued]
      by_cases heq : g = q.nextGroup
      · simp [heq, hp, hnext]
      · simp [heq]

/-! ## Leaving -/

theorem findSome?_eq_of_unique {α β : Type} {l : List α} {F : α → Option β} {x : α} {y : β}
    (hx : x ∈ l) (hF : F x = some y) (hother : ∀ z ∈ l, z ≠ x → F z = none) :
    l.findSome? F = some y := by
  induction l with
  | nil => exact absurd hx not_mem_nil
  | cons z l ih =>
    by_cases heq : z = x
    · rw [heq, List.findSome?_cons, hF]
    · have hxl : x ∈ l := (mem_cons.1 hx).resolve_left (Ne.symm heq)
      rw [List.findSome?_cons, hother z mem_cons_self heq]
      exact ih hxl fun w hw => hother w (mem_cons_of_mem z hw)

/-- A group of the queues is found, where it is. -/
theorem Consistent.findGroup_eq (h : Consistent q) (hg : g ∈ q.queuedGroups i) :
    q.findGroup g (q.info g).team = some (i, (q.queuedGroups i).idxOf g) := by
  obtain ⟨bracket, type⟩ := i
  rw [info_team (h.side hg)]
  have hnone : ∀ i', i' ≠ (bracket, type) →
      ¬(q.queuedGroups i').idxOf g < (q.queuedGroups i').length := fun i' hne hlt =>
    hne (h.distinct.unique (idxOf_lt_length_iff.1 hlt) hg)
  have htype : type ∈ [QueueGroupType.normal type.team, .premade type.team] := by
    cases type <;> simp [QueueGroupType.team]
  refine findSome?_eq_of_unique (x := bracket) (by simp) ?_ fun b _ hb => ?_
  · refine findSome?_eq_of_unique (x := type) htype
      (if_pos (idxOf_lt_length_iff.2 hg)) fun t _ ht => if_neg (hnone _ ?_)
    exact fun heq => ht (congrArg Prod.snd heq)
  · refine List.findSome?_eq_none_iff.2 fun t _ => if_neg (hnone _ ?_)
    exact fun heq => hb (congrArg Prod.fst heq)

theorem players?_dropPlayer : (q.dropPlayer g guid).players? g' =
    if g' = g then (q.players? g).map fun ps => ps.erase guid else q.players? g' := by
  rw [players?, players?, Option.map_map]
  exact players?_modify

theorem team?_dropPlayer : (q.dropPlayer g guid).team? g' = q.team? g' := by
  have hmodify : (q.modify g fun ginfo =>
      { ginfo with players := ginfo.players.erase guid }).team? g' = _ := team?_modify
  refine hmodify.trans ?_
  split
  next heq => rw [heq, team?]
  next => rfl

theorem Consistent.dropPlayer (h : Consistent q) (hguid : q.queuedPlayers guid = some g) :
    Consistent (q.dropPlayer g guid) := by
  have hlive : ∀ {g' ps}, (q.dropPlayer g guid).players? g' = some ps →
      ∃ ps, q.players? g' = some ps := by
    intro g' ps hps
    rw [players?_dropPlayer] at hps
    split at hps
    next heq =>
      obtain ⟨ps', hps', -⟩ := map_eq_some_iff.1 hps
      exact ⟨ps', heq ▸ hps'⟩
    next => exact ⟨ps, hps⟩
  constructor
  · exact h.distinct
  · intro i g' hg'
    rw [team?_dropPlayer]
    exact h.side hg'
  · intro g' ps hps
    obtain ⟨ps', hps'⟩ := hlive hps
    exact h.placed hps'
  · intro g' ps hps
    obtain ⟨ps', hps'⟩ := hlive hps
    exact h.fresh hps'
  · intro p g'
    rw [players?_dropPlayer]
    change Function.update q.queuedPlayers guid none p = some g' ↔ _
    by_cases hp : p = guid
    · subst hp
      have hother : ∀ ps, g' ≠ g → q.players? g' = some ps → p ∉ ps := fun ps hne hps hmem => by
        have hsome := h.queued.2 ⟨ps, hps, hmem⟩
        exact hne (some.inj (hsome.symm.trans hguid))
      by_cases heq : g' = g
      · simp [heq]
      · simpa [heq] using fun ps => hother ps heq
    · rw [update_of_ne hp, h.queued]
      by_cases heq : g' = g
      · simp [heq, hp]
      · simp [heq]

theorem players?_deleteGroup {itr : ℕ} : (q.deleteGroup g i itr).players? g' =
    if g' = g then none else q.players? g' := by
  by_cases heq : g' = g
  · simp [players?, deleteGroup, heq]
  · simp [players?, deleteGroup, heq, setQueue]

theorem queuedGroups_deleteGroup : (q.deleteGroup g i ((q.queuedGroups i).idxOf g)).queuedGroups =
    Function.update q.queuedGroups i ((q.queuedGroups i).erase g) := by
  rw [deleteGroup, setQueue, eraseIdx_idxOf_eq_erase]

theorem Consistent.deleteGroup (h : Consistent q) (hg : g ∈ q.queuedGroups i)
    (hempty : q.players? g = some ∅) :
    Consistent (q.deleteGroup g i ((q.queuedGroups i).idxOf g)) := by
  have hmem : ∀ {g' k}, g' ∈ (q.deleteGroup g i ((q.queuedGroups i).idxOf g)).queuedGroups k ↔
      g' ≠ g ∧ g' ∈ q.queuedGroups k := by
    intro g' k
    rw [queuedGroups_deleteGroup]
    exact h.distinct.mem_erase hg
  constructor
  · rw [queuedGroups_deleteGroup]
    exact h.distinct.erase i g
  · intro k g' hg'
    obtain ⟨hne, hk⟩ := hmem.1 hg'
    have hteam : (q.deleteGroup g i ((q.queuedGroups i).idxOf g)).team? g' = q.team? g' := by
      simp [team?, BattlegroundQueue.deleteGroup, setQueue, hne]
    exact hteam.trans (h.side hk)
  · intro g' ps hps
    rw [players?_deleteGroup] at hps
    split at hps
    next => exact absurd hps (by simp)
    next hne =>
      obtain ⟨k, hk⟩ := h.placed hps
      exact ⟨k, hmem.2 ⟨hne, hk⟩⟩
  · intro g' ps hps
    rw [players?_deleteGroup] at hps
    split at hps
    next => exact absurd hps (by simp)
    next => exact h.fresh hps
  · intro p g'
    rw [players?_deleteGroup]
    change q.queuedPlayers p = some g' ↔ _
    rw [h.queued]
    by_cases heq : g' = g
    · simp [heq, hempty]
    · simp [heq]

/-- What one call of `RemovePlayer` does, up to the next. -/
theorem Consistent.removeLoop_eq (h : Consistent q) (rounds : ℕ)
    (hguid : q.queuedPlayers guid = some g) : ∃ i, g ∈ q.queuedGroups i ∧
      removeLoop (rounds + 1) q guid =
        if hne : ((q.dropPlayer g guid).info g).players.Nonempty then
          if !(q.dropPlayer g guid).isInvited g && ((q.dropPlayer g guid).info g).isRated then
            removeLoop rounds (q.dropPlayer g guid)
              (((q.dropPlayer g guid).info g).players.min' hne)
          else q.dropPlayer g guid
        else (q.dropPlayer g guid).deleteGroup g i ((q.queuedGroups i).idxOf g) := by
  obtain ⟨ps, hps, -⟩ := h.queued.1 hguid
  obtain ⟨i, hi⟩ := h.placed hps
  refine ⟨i, hi, ?_⟩
  rw [removeLoop, hguid]
  dsimp only
  rw [h.findGroup_eq hi]

theorem Consistent.removeLoop : ∀ {rounds : ℕ} {q : BattlegroundQueue} {guid : ℕ},
    Consistent q → Consistent (removeLoop rounds q guid)
  | 0, _, _, h => h
  | rounds + 1, q, guid, h => by
    rcases hguid : q.queuedPlayers guid with _ | g
    · rw [BattlegroundQueue.removeLoop, hguid]
      exact h
    · obtain ⟨i, hi, heq⟩ := h.removeLoop_eq rounds hguid
      have hdrop := h.dropPlayer hguid
      rw [heq]
      split
      · split
        · exact Consistent.removeLoop hdrop
        · exact hdrop
      next hne =>
        obtain ⟨ps, hps⟩ := hdrop.live (g := g) (i := i) hi
        rw [info_players hps, Finset.not_nonempty_iff_eq_empty] at hne
        exact hdrop.deleteGroup hi (hne ▸ hps)

/-- `RemovePlayer` keeps every list and count in step. -/
theorem Consistent.removePlayer (h : Consistent q) (guid : ℕ) :
    Consistent (q.removePlayer guid) := by
  rw [BattlegroundQueue.removePlayer]
  split
  · exact h
  · exact h.removeLoop

/-- A group is neither in a queue nor at its address. -/
def Gone (q : BattlegroundQueue) (g : ℕ) : Prop :=
  q.groups g = none ∧ ∀ i, g ∉ q.queuedGroups i

theorem Consistent.gone_deleteGroup (h : Consistent q) (hg : g ∈ q.queuedGroups i) :
    (q.deleteGroup g i ((q.queuedGroups i).idxOf g)).Gone g := by
  refine ⟨update_self _ _ _, fun k hk => ?_⟩
  rw [queuedGroups_deleteGroup, h.distinct.mem_erase hg] at hk
  exact hk.1 rfl

/-- The last player of a group takes it with him. -/
theorem Consistent.removeLoop_last (h : Consistent q) (rounds : ℕ)
    (hps : q.players? g = some {guid}) :
    (BattlegroundQueue.removeLoop (rounds + 1) q guid).Gone g := by
  have hguid : q.queuedPlayers guid = some g := h.queued.2 ⟨_, hps, Finset.mem_singleton_self guid⟩
  obtain ⟨i, hi, heq⟩ := h.removeLoop_eq rounds hguid
  have hempty : (q.dropPlayer g guid).players? g = some ∅ := by
    rw [players?_dropPlayer, if_pos rfl, hps, map_some, Finset.erase_singleton]
  rw [heq, dif_neg (by simp [info_players hempty])]
  exact (h.dropPlayer hguid).gone_deleteGroup hi

/-- With one player of a rated team that is not invited, all leave. -/
theorem Consistent.removeLoop_rated : ∀ {rounds : ℕ} {q : BattlegroundQueue} {guid : ℕ}
    {ps : Finset ℕ}, Consistent q → q.players? g = some ps → ps.card = rounds → guid ∈ ps →
      q.isInvited g = false → (q.info g).isRated = true →
      (BattlegroundQueue.removeLoop rounds q guid).Gone g
  | 0, q, guid, ps, _, _, hcard, hmem, _, _ => by
    rw [Finset.card_eq_zero.1 hcard] at hmem
    exact absurd hmem (Finset.notMem_empty guid)
  | rounds + 1, q, guid, ps, h, hps, hcard, hmem, hinvited, hrated => by
    have hguid : q.queuedPlayers guid = some g := h.queued.2 ⟨ps, hps, hmem⟩
    obtain ⟨i, hi, heq⟩ := h.removeLoop_eq rounds hguid
    have hdrop := h.dropPlayer hguid
    have hdropped : (q.dropPlayer g guid).players? g = some (ps.erase guid) := by
      rw [players?_dropPlayer, if_pos rfl, hps, map_some]
    have hinfo : (q.dropPlayer g guid).info g =
        { q.info g with players := (q.info g).players.erase guid } := by
      obtain ⟨ginfo, hginfo, -⟩ := map_eq_some_iff.1 hps
      simp [info, BattlegroundQueue.dropPlayer, modify, hginfo]
    have hinvited' : (q.dropPlayer g guid).isInvited g = false := by
      rw [isInvited, hinfo]
      exact hinvited
    have hrated' : ((q.dropPlayer g guid).info g).isRated = true := by
      rw [hinfo]
      exact hrated
    rw [heq, hinvited', hrated']
    split
    next hne =>
      refine hdrop.removeLoop_rated hdropped ?_ ?_ hinvited' hrated'
      · rw [Finset.card_erase_of_mem hmem, hcard, Nat.add_sub_cancel]
      · exact info_players hdropped ▸ Finset.min'_mem _ hne
    next => exact hdrop.gone_deleteGroup hi

theorem Consistent.removePlayer_rated (h : Consistent q) (hguid : q.queuedPlayers guid = some g)
    (hinvited : q.isInvited g = false) (hrated : (q.info g).isRated = true) :
    (q.removePlayer guid).Gone g := by
  obtain ⟨ps, hps, hmem⟩ := h.queued.1 hguid
  rw [BattlegroundQueue.removePlayer, hguid]
  refine h.removeLoop_rated hps ?_ hmem hinvited hrated
  rw [size, info_players hps]

/-! ## Invitations -/

theorem team?_inviteGroupToBG {instanceID now : ℕ} :
    (q.inviteGroupToBG g instanceID team now).team? g' =
      if g' = g then (q.team? g).map fun _ => team else q.team? g' := by
  have hteam : ∀ ginfo : GroupQueueInfo, (if ginfo.isInvitedToBGInstanceGUID = 0 then
      { ginfo with
        team := team
        isInvitedToBGInstanceGUID := instanceID
        removeInviteTime := toU32 (now + inviteAcceptWaitTime) }
      else { ginfo with team := team }).team = team := fun ginfo => by split <;> rfl
  rw [inviteGroupToBG, team?_modify]
  simp only [hteam, team?, Option.map_map, Function.comp_def]

theorem samePlayers_inviteGroupToBG {instanceID now : ℕ} :
    SamePlayers q (q.inviteGroupToBG g instanceID team now) :=
  samePlayers_modify fun ginfo => by split <;> rfl

/-- A group is invited for its own faction. -/
theorem Consistent.invite (h : Consistent q) (g instanceID now : ℕ) :
    Consistent (q.inviteGroupToBG g instanceID (q.info g).team now) := by
  refine h.of_same samePlayers_inviteGroupToBG h.distinct ?_ fun hg => ⟨_, hg⟩
  intro i g' hg'
  have hside := h.side (i := i) hg'
  rw [team?_inviteGroupToBG]
  split
  next heq =>
    rw [heq] at hside
    rw [hside, map_some, info_team hside]
  next => exact hside

theorem Consistent.foldl {α : Type} {step : BattlegroundQueue → α → BattlegroundQueue}
    (hstep : ∀ {q} (x : α), Consistent q → Consistent (step q x)) (l : List α)
    (h : Consistent q) : Consistent (l.foldl step q) := by
  induction l generalizing q with
  | nil => exact h
  | cons x l ih => exact ih (hstep x h)

theorem Consistent.inviteSelected (h : Consistent q) (pools : SelectionPools)
    (instanceID now : ℕ) : Consistent (q.inviteSelected pools instanceID now) :=
  h.foldl (fun g hq => hq.invite g instanceID now) _

theorem Consistent.fillBattleground (h : Consistent q) (req : QueueUpdate) (bg : Battleground) :
    Consistent (BattlegroundQueue.fillBattleground req q bg) := by
  rw [BattlegroundQueue.fillBattleground]
  split
  · exact h.inviteSelected _ _ _
  · exact h

/-! ## Matches -/

theorem Consistent.moveToNormal (h : Consistent q) (bracket : BracketId) (timeBefore n : ℕ)
    (team : Team) : Consistent (q.moveToNormal bracket timeBefore n team) := by
  rw [BattlegroundQueue.moveToNormal]
  rcases hqueue : q.queuedGroups (bracket, .premade team) with _ | ⟨g, rest⟩
  · exact h
  · dsimp only
    split
    · have hg : g ∈ q.queuedGroups (bracket, .premade team) := hqueue ▸ mem_cons_self
      have hside := h.side hg
      refine h.move (samePlayers_setQueue.trans samePlayers_setQueue) hg
        (j := (bracket, .normal team)) (by simp) ?_ fun g' => ?_
      · rw [hqueue, erase_cons_head]
        rfl
      · split
        next heq => exact (congrArg _ heq).trans hside
        next => rfl
    · exact h

/-- Neither a premade match nor its lapse breaks the lists. -/
theorem Consistent.checkPremadeMatch (h : Consistent q) (bracket : BracketId)
    (timeBefore minPlayers maxPlayers : ℕ) (pools : SelectionPools) :
    Consistent (q.checkPremadeMatch bracket timeBefore minPlayers maxPlayers pools).1 := by
  rw [BattlegroundQueue.checkPremadeMatch]
  split
  · exact h
  · exact (h.moveToNormal _ _ _ _).moveToNormal _ _ _ _

/-- The groups that are added to a pool are some of those looked at, in their order. -/
theorem selectedGroups_addGroups (desiredCount : ℕ) : ∀ (l : List ℕ) (pool : SelectionPool),
    ∃ l', (q.addGroups desiredCount pool l).selectedGroups = pool.selectedGroups ++ l' ∧
      l'.Sublist l
  | [], pool => ⟨[], (append_nil _).symm, nil_sublist _⟩
  | g :: l, pool => by
    rw [addGroups]
    split
    · obtain ⟨l', hl', hsub⟩ := selectedGroups_addGroups desiredCount l pool
      exact ⟨l', hl', hsub.cons g⟩
    · by_cases hadd : (q.info g).isInvitedToBGInstanceGUID = 0 ∧
          pool.playerCount + (q.info g).players.card ≤ desiredCount
      · rw [SelectionPool.addGroup, if_pos hadd]
        obtain ⟨l', hl', hsub⟩ := selectedGroups_addGroups desiredCount l
          { selectedGroups := pool.selectedGroups ++ [g]
            playerCount := pool.playerCount + (q.info g).players.card }
        exact ⟨g :: l', by simpa using hl', hsub.cons_cons g⟩
      · rw [SelectionPool.addGroup, if_neg hadd]
        dsimp only
        split
        · obtain ⟨l', hl', hsub⟩ := selectedGroups_addGroups desiredCount l pool
          exact ⟨l', hl', hsub.cons g⟩
        · exact ⟨[], (append_nil _).symm, nil_sublist _⟩

/-- A group after the iterator is moved to the other faction. -/
theorem Consistent.moveToOther (h : Consistent q) {bracket : BracketId} {itrTeam : ℕ}
    (hg : g ∈ (q.queuedGroups (bracket, .normal team)).drop (itrTeam + 1)) :
    Consistent (BattlegroundQueue.moveToOther bracket team (q, some itrTeam) g).1 ∧
      ((BattlegroundQueue.moveToOther bracket team (q, some itrTeam) g).1.queuedGroups
        (bracket, .normal team)).drop (itrTeam + 1) =
          ((q.queuedGroups (bracket, .normal team)).drop (itrTeam + 1)).erase g := by
  have hne : (bracket, QueueGroupType.normal team) ≠ (bracket, .normal team.other) := by
    simpa using (Team.other_ne team).symm
  generalize hqueue : q.queuedGroups (bracket, .normal team) = queue at *
  have hnodup : queue.Nodup := hqueue ▸ h.distinct.nodup _
  have hdisjoint : g ∉ queue.take (itrTeam + 1) := fun htake => by
    rw [← take_append_drop (itrTeam + 1) queue] at hnodup
    exact disjoint_of_nodup_append hnodup htake hg
  have herase : queue.take (itrTeam + 1) ++ (queue.drop (itrTeam + 1)).erase g = queue.erase g := by
    rw [← erase_append_right _ hdisjoint, take_append_drop]
  have hqueues : (BattlegroundQueue.moveToOther bracket team (q, some itrTeam) g).1.queuedGroups =
      Function.update (Function.update q.queuedGroups (bracket, .normal team.other)
        (g :: q.queuedGroups (bracket, .normal team.other))) (bracket, .normal team)
        (queue.take (itrTeam + 1) ++ (queue.drop (itrTeam + 1)).erase g) := by
    simp only [BattlegroundQueue.moveToOther, setQueue, modify, update_of_ne hne, hqueue]
  refine ⟨h.move (j := (bracket, .normal team.other)) ?_
    (hqueue ▸ mem_of_mem_drop hg) hne ?_ fun g' => ?_, ?_⟩
  · have hsame : SamePlayers q (q.modify g fun ginfo => { ginfo with team := team.other }) :=
      samePlayers_modify fun _ => rfl
    exact hsame.trans (samePlayers_setQueue.trans samePlayers_setQueue)
  · rw [hqueues, hqueue, herase]
  · refine team?_modify.trans ?_
    split
    next heq =>
      have hside := h.side (hqueue ▸ mem_of_mem_drop hg : g ∈ q.queuedGroups _)
      obtain ⟨ginfo, hginfo, -⟩ := map_eq_some_iff.1 hside
      rw [hginfo]
      rfl
    next => rfl
  · rw [hqueues, update_self]
    have hlen : (queue.take (itrTeam + 1)).length = itrTeam + 1 := by
      have hpos := length_pos_of_mem hg
      rw [length_drop] at hpos
      rw [length_take]
      omega
    rw [drop_append_of_le_length hlen.ge, drop_of_length_le hlen.le, nil_append]

/-- Without the position of `itr_team`, no group is moved. -/
theorem foldl_moveToOther_none {bracket : BracketId} (l : List ℕ) (q : BattlegroundQueue) :
    (l.foldl (BattlegroundQueue.moveToOther bracket team) (q, none)).1 =
      { q with undefined := q.undefined || !l.isEmpty } := by
  induction l generalizing q with
  | nil => simp
  | cons g l ih => simp [BattlegroundQueue.moveToOther, ih]

theorem Consistent.moveAllToOther {bracket : BracketId} {itrTeam : ℕ} :
    ∀ {l : List ℕ} {q : BattlegroundQueue}, Consistent q → l.Nodup →
      (∀ g ∈ l, g ∈ (q.queuedGroups (bracket, .normal team)).drop (itrTeam + 1)) →
      Consistent (l.foldl (BattlegroundQueue.moveToOther bracket team) (q, some itrTeam)).1
  | [], _, h, _, _ => h
  | g :: l, q, h, hnodup, hl => by
    obtain ⟨hnot, hrest⟩ := nodup_cons.1 hnodup
    obtain ⟨hmoved, hdrop⟩ := h.moveToOther (hl g mem_cons_self)
    rw [foldl_cons]
    generalize hnext : BattlegroundQueue.moveToOther bracket team (q, some itrTeam) g = next at *
    obtain ⟨q', position⟩ := next
    cases position with
    | none =>
      rw [foldl_moveToOther_none]
      exact ⟨hmoved.distinct, hmoved.side, hmoved.placed, hmoved.fresh, hmoved.queued⟩
    | some itrTeam' =>
      obtain rfl : itrTeam = itrTeam' := by
        have hposition := congrArg Prod.snd hnext
        simp only [BattlegroundQueue.moveToOther] at hposition
        split_ifs at hposition
        exact some.inj hposition
      refine hmoved.moveAllToOther hrest fun g' hg' => ?_
      rw [hdrop]
      have hne : g' ≠ g := fun heq => hnot (heq ▸ hg')
      exact (mem_erase_of_ne hne).2 (hl g' (mem_cons_of_mem g hg'))

/-- The second team of a skirmish is of groups after `itr_team`. -/
theorem skirmishPool_spec {bracket : BracketId} {minPlayers back itrTeam : ℕ}
    {pools : SelectionPools} {pool : SelectionPool}
    (h : q.skirmishPool bracket minPlayers back pools = some (team, itrTeam, pool)) :
    pool.selectedGroups.Sublist
      ((q.queuedGroups (bracket, .normal team)).drop (itrTeam + 1)) := by
  rw [skirmishPool] at h
  dsimp only at h
  generalize (if (pools .horde).playerCount = minPlayers then Team.horde else .alliance) = team' at h
  split_ifs at h
  obtain ⟨rfl, rfl, rfl⟩ := by simpa only [some.injEq, Prod.mk.injEq] using h
  obtain ⟨l', hl', hsub⟩ := selectedGroups_addGroups (q := q) minPlayers
    ((q.queuedGroups (bracket, .normal team')).drop
      ((q.queuedGroups (bracket, .normal team')).idxOf
        ((pools team').selectedGroups.getLast?.getD back) + 1)) {}
  rw [hl']
  exact hsub

theorem Consistent.checkSkirmishForSameFaction (h : Consistent q) (bracket : BracketId)
    (minPlayers back : ℕ) (pools : SelectionPools) :
    Consistent (q.checkSkirmishForSameFaction bracket minPlayers back pools).1 := by
  rw [BattlegroundQueue.checkSkirmishForSameFaction]
  split
  · exact h
  next team itrTeam pool hpool =>
    have hsub := skirmishPool_spec hpool
    have hnodup :=
      ((h.distinct.nodup (bracket, .normal team)).sublist (drop_sublist _ _)).sublist hsub
    exact h.moveAllToOther hnodup fun g hg => hsub.subset hg

theorem Consistent.premadeMatch (h : Consistent q) (req : QueueUpdate)
    (minPlayers maxPlayers : ℕ) : Consistent (q.premadeMatch req minPlayers maxPlayers).1 := by
  rw [BattlegroundQueue.premadeMatch]
  have hcheck := h.checkPremadeMatch req.bracketId (toU32 (req.now - req.premadeGroupWait))
    minPlayers maxPlayers fun _ => {}
  split
  next hq =>
    rw [hq] at hcheck
    exact hcheck
  next hq =>
    rw [hq] at hcheck
    split
    · exact hcheck
    · exact hcheck.inviteSelected _ _ _

theorem Consistent.selectPools (h : Consistent q) (req : QueueUpdate) (isArena : Bool)
    (minPlayers maxPlayers : ℕ) :
    Consistent (q.selectPools req isArena minPlayers maxPlayers).1 := by
  rw [BattlegroundQueue.selectPools]
  split
  · exact h
  · split
    · exact h.checkSkirmishForSameFaction _ _ _ _
    · exact h

/-- A normal match keeps lists and players in step. -/
theorem Consistent.normalMatch (h : Consistent q) (req : QueueUpdate) (isArena : Bool)
    (minPlayers maxPlayers : ℕ) : Consistent (q.normalMatch req isArena minPlayers maxPlayers) := by
  have hselected := h.selectPools req isArena minPlayers maxPlayers
  rw [BattlegroundQueue.normalMatch]
  generalize q.selectPools req isArena minPlayers maxPlayers = selected at *
  obtain ⟨q', _ | pools⟩ := selected
  · exact hselected
  · rcases req.newBattleground with _ | bg2
    · exact hselected
    · exact hselected.inviteSelected _ _ _

/-! ## Rated matches -/

/-- The teams that are found stand in the queues of the two factions, or are two of one queue. -/
theorem findTeams_spec {bracket : BracketId} {fits : ℕ → Bool} {aTeam hTeam : ℕ × ℕ}
    (hfound : q.findTeams bracket fits = some (aTeam, hTeam)) :
    ((q.queuedGroups (bracket, .premade .alliance))[aTeam.2]? = some aTeam.1 ∧
        (q.queuedGroups (bracket, .premade .horde))[hTeam.2]? = some hTeam.1) ∨
      ∃ team, (q.queuedGroups (bracket, .premade team))[aTeam.2]? = some aTeam.1 ∧
        (q.queuedGroups (bracket, .premade team))[hTeam.2]? = some hTeam.1 ∧
        aTeam.1 ≠ hTeam.1 := by
  have hplace : ∀ {l : List ℕ} {p : ℕ × ℕ → Bool} {itr : ℕ × ℕ}, l.zipIdx.find? p = some itr →
      l[itr.2]? = some itr.1 := fun hfind =>
    mk_mem_zipIdx_iff_getElem?.1 (mem_of_find?_eq_some hfind)
  have hsecond : ∀ {team : Team} {first second : ℕ × ℕ},
      (((q.queuedGroups (bracket, .premade team)).zipIdx).drop first.2).find? (fun itr3 =>
        fits itr3.1 && decide ((q.info first.1).arenaTeamId ≠ (q.info itr3.1).arenaTeamId)) =
          some second →
      (q.queuedGroups (bracket, .premade team))[second.2]? = some second.1 ∧
        first.1 ≠ second.1 := by
    intro team first second hfind
    refine ⟨mk_mem_zipIdx_iff_getElem?.1
      (mem_of_mem_drop (mem_of_find?_eq_some hfind)), fun heq => ?_⟩
    have hfits := List.find?_some hfind
    rw [heq] at hfits
    simp at hfits
  rw [findTeams] at hfound
  split at hfound
  next hali hhorde =>
    obtain ⟨rfl, rfl⟩ := Prod.mk.inj (some.inj hfound)
    exact .inl ⟨hplace hali, hplace hhorde⟩
  next hali _ =>
    obtain ⟨second, hfind, heq⟩ := map_eq_some_iff.1 hfound
    obtain ⟨rfl, rfl⟩ := Prod.mk.inj heq
    exact .inr ⟨.alliance, hplace hali, hsecond hfind⟩
  next _ hhorde =>
    obtain ⟨second, hfind, heq⟩ := map_eq_some_iff.1 hfound
    obtain ⟨rfl, rfl⟩ := Prod.mk.inj heq
    exact .inr ⟨.horde, hplace hhorde, hsecond hfind⟩
  next => exact absurd hfound (by simp)

theorem samePlayers_setOpponents {opponents : GroupQueueInfo} :
    SamePlayers q (q.setOpponents g opponents) :=
  samePlayers_modify fun _ => rfl

theorem team?_setOpponents {opponents : GroupQueueInfo} :
    (q.setOpponents g opponents).team? g' = q.team? g' := by
  refine team?_modify.trans ?_
  split
  next heq => rw [heq, team?]
  next => rfl

theorem Consistent.setOpponents (h : Consistent q) (g : ℕ) (opponents : GroupQueueInfo) :
    Consistent (q.setOpponents g opponents) :=
  h.of_same samePlayers_setOpponents h.distinct
    (fun hg => team?_setOpponents.trans (h.side (q := q) hg)) fun hg => ⟨_, hg⟩

variable {bracket : BracketId} {itr : ℕ × ℕ}

theorem moveTeam_of_team (h : q.team? itr.1 = some team) : q.moveTeam bracket itr team = q := by
  rw [moveTeam, if_neg fun hne => hne (info_team h)]

theorem team?_moveTeam : (q.moveTeam bracket itr team).team? g = q.team? g := by
  rw [moveTeam]
  split <;> rfl

theorem samePlayers_moveTeam : SamePlayers q (q.moveTeam bracket itr team) := by
  rw [moveTeam]
  split
  · exact samePlayers_setQueue.trans samePlayers_setQueue
  · exact .refl q

section

variable (h : Consistent q)
include h

/-- A team of the other faction is moved, and its faction is set at the end. -/
theorem Consistent.moveTeam (itr : ℕ × ℕ) (team : Team) (hsame : SamePlayers q q')
    (hitr : (q.queuedGroups (bracket, .premade team.other))[itr.2]? = some itr.1)
    (hqueues : q'.queuedGroups = (q.moveTeam bracket itr team).queuedGroups)
    (hteam : ∀ g', q'.team? g' = if g' = itr.1 then some team else q.team? g') : Consistent q' := by
  obtain ⟨hlt, hget⟩ := List.getElem?_eq_some_iff.1 hitr
  have hmem : itr.1 ∈ q.queuedGroups (bracket, .premade team.other) := hget ▸ getElem_mem hlt
  have hne : (bracket, QueueGroupType.premade team.other) ≠ (bracket, .premade team) := by
    simpa using Team.other_ne team
  have hside : (q.info itr.1).team ≠ team := by
    rw [info_team (h.side hmem)]
    exact Team.other_ne team
  refine h.move (j := (bracket, .premade team)) hsame hmem hne ?_ hteam
  rw [hqueues, BattlegroundQueue.moveTeam, if_pos hside]
  have herase : (q.queuedGroups (bracket, .premade team.other)).eraseIdx itr.2 =
      (q.queuedGroups (bracket, .premade team.other)).erase itr.1 := by
    rw [← (h.distinct.nodup _).erase_getElem _ hlt, hget]
  simp only [setQueue, update_of_ne hne, herase]

theorem Consistent.startArena {fits : ℕ → Bool} {aTeam hTeam : ℕ × ℕ}
    (hfound : q.findTeams bracket fits = some (aTeam, hTeam)) (arena now : ℕ) :
    Consistent (q.startArena bracket aTeam hTeam arena now) := by
  have hstart : Consistent ((q.setOpponents aTeam.1 (q.info hTeam.1)).setOpponents hTeam.1
      (q.info aTeam.1)) := (h.setOpponents _ _).setOpponents _ _
  have hqueues : ((q.setOpponents aTeam.1 (q.info hTeam.1)).setOpponents hTeam.1
      (q.info aTeam.1)).queuedGroups = q.queuedGroups := rfl
  rw [BattlegroundQueue.startArena]
  generalize (q.setOpponents aTeam.1 (q.info hTeam.1)).setOpponents hTeam.1 (q.info aTeam.1) = q1
    at hstart hqueues ⊢
  have hside : ∀ {team : Team} {itr : ℕ × ℕ},
      (q.queuedGroups (bracket, .premade team))[itr.2]? = some itr.1 →
      q1.team? itr.1 = some team := fun {team itr} hitr =>
    hstart.side (i := (bracket, .premade team)) (hqueues ▸ mem_of_getElem? hitr)
  rcases findTeams_spec hfound with ⟨ha, hh⟩ | ⟨team, ha, hh, hne⟩
  · rw [moveTeam_of_team (hside ha), moveTeam_of_team (hside hh)]
    have ha' := hstart.invite aTeam.1 arena now
    rw [info_team (hside ha)] at ha'
    have hh' := ha'.invite hTeam.1 arena now
    have hteam := ha'.side (i := (bracket, .premade .horde)) (g := hTeam.1)
      (hqueues ▸ mem_of_getElem? hh : hTeam.1 ∈ q1.queuedGroups _)
    rwa [info_team hteam] at hh'
  · have hteams : ∀ {q2 : BattlegroundQueue}, (∀ g, q2.team? g = q1.team? g) → ∀ g',
        ((q2.inviteGroupToBG aTeam.1 arena .alliance now).inviteGroupToBG hTeam.1 arena .horde
          now).team? g' = if g' = hTeam.1 then some .horde
            else if g' = aTeam.1 then some .alliance else q1.team? g' := by
      intro q2 hq2 g'
      rw [team?_inviteGroupToBG]
      split
      · rw [team?_inviteGroupToBG, if_neg hne.symm, hq2, hside hh, map_some]
      · rw [team?_inviteGroupToBG, hq2, hq2, hside ha, map_some]
    cases team with
    | alliance =>
      rw [moveTeam_of_team (hside ha)]
      refine hstart.moveTeam hTeam .horde
        (samePlayers_moveTeam.trans
          (samePlayers_inviteGroupToBG.trans samePlayers_inviteGroupToBG))
        (hqueues ▸ hh) rfl fun g' => ?_
      rw [hteams fun _ => team?_moveTeam]
      split
      · rfl
      · split
        next heq => rw [heq, hside ha]
        next => rfl
    | horde =>
      have hstay : (q1.moveTeam bracket aTeam .alliance).moveTeam bracket hTeam .horde =
          q1.moveTeam bracket aTeam .alliance :=
        moveTeam_of_team (team?_moveTeam.trans (hside hh))
      rw [hstay]
      refine hstart.moveTeam aTeam .alliance
        (samePlayers_moveTeam.trans
          (samePlayers_inviteGroupToBG.trans samePlayers_inviteGroupToBG))
        (hqueues ▸ ha) rfl fun g' => ?_
      rw [hteams fun _ => team?_moveTeam]
      by_cases heq : g' = hTeam.1
      · rw [if_pos heq, heq, if_neg hne.symm, hside hh]
      · rw [if_neg heq]

theorem Consistent.ratedMatch (req : QueueUpdate) : Consistent (q.ratedMatch req) := by
  rw [BattlegroundQueue.ratedMatch]
  split
  · exact h
  · dsimp only
    split
    next hfound _ => exact h.startArena hfound _ _
    next => exact h

theorem Consistent.update (req : QueueUpdate) : Consistent (q.update req) := by
  have hfilled : Consistent (req.freeSlotQueue.foldl (BattlegroundQueue.fillBattleground req) q) :=
    h.foldl (fun bg hq => hq.fillBattleground req bg) _
  rw [BattlegroundQueue.update]
  split
  · exact h
  dsimp only
  generalize req.freeSlotQueue.foldl (BattlegroundQueue.fillBattleground req) q = q1 at *
  split
  · exact hfilled
  next bgTemplate _ =>
  split
  · exact hfilled
  generalize (if bgTemplate.isArena then req.arenaType
    else bgTemplate.maxPlayersPerTeam) = maxPlayers
  generalize (if bgTemplate.isArena then if req.isArenaTesting then 1 else req.arenaType
    else if req.isTesting then 1 else bgTemplate.minPlayersPerTeam) = minPlayers
  have hpremade : Consistent (if bgTemplate.isArena then (q1, true)
      else q1.premadeMatch req minPlayers maxPlayers).1 := by
    split
    · exact hfilled
    · exact hfilled.premadeMatch _ _ _
  generalize (if bgTemplate.isArena then (q1, true)
    else q1.premadeMatch req minPlayers maxPlayers) = premade at *
  split
  · exact hpremade
  split
  · exact hpremade.normalMatch _ _ _ _
  split
  · exact hpremade.ratedMatch _
  · exact hpremade

theorem Consistent.serve {call : QueueCall} (hjoins : Joins q call) :
    Consistent (q.serve call) := by
  cases call with
  | addGroup join => exact h.addGroup hjoins
  | removePlayer guid => exact h.removePlayer guid
  | update req => exact h.update req

end

/-! ## Iterators -/

/-- A second group is moved with an iterator that the first one has taken away. -/
theorem undefined_moveAllToOther {bracket : BracketId} {itrTeam : ℕ} {l : List ℕ}
    (hl : l.Sublist ((q.queuedGroups (bracket, .normal team)).drop (itrTeam + 1))) :
    (l.foldl (BattlegroundQueue.moveToOther bracket team) (q, some itrTeam)).1.undefined =
      (q.undefined || decide (1 < l.length)) := by
  have hne : (bracket, QueueGroupType.normal team) ≠ (bracket, .normal team.other) := by
    simpa using (Team.other_ne team).symm
  rcases l with _ | ⟨g, _ | ⟨g', l⟩⟩
  · simp
  · simp [BattlegroundQueue.moveToOther, setQueue, modify]
  · obtain ⟨front, back, hbehind, hg, hback⟩ := cons_sublist_iff.1 hl
    have hmiddle : ((q.queuedGroups (bracket, .normal team)).drop (itrTeam + 1)).idxOf g + 1 <
        ((q.queuedGroups (bracket, .normal team)).drop (itrTeam + 1)).length := by
      have hpos := hback.length_le
      have hlt := idxOf_lt_length_iff.2 hg
      rw [length_cons] at hpos
      rw [hbehind, idxOf_append_of_mem hg, length_append]
      omega
    have hposition : (BattlegroundQueue.moveToOther bracket team (q, some itrTeam) g).2 = none := by
      simp only [BattlegroundQueue.moveToOther, setQueue, modify, update_of_ne hne,
        if_pos hmiddle]
    rw [foldl_cons]
    generalize BattlegroundQueue.moveToOther bracket team (q, some itrTeam) g = next at hposition
    obtain ⟨q', position⟩ := next
    obtain rfl : position = none := hposition
    rw [foldl_moveToOther_none]
    simp

/-- More than one group is moved. -/
def movesMore (found : Team × ℕ × SelectionPool) : Bool :=
  1 < found.2.2.selectedGroups.length

theorem undefined_checkSkirmish (bracket : BracketId) (minPlayers back : ℕ)
    (pools : SelectionPools) :
    (q.checkSkirmishForSameFaction bracket minPlayers back pools).1.undefined =
      (q.undefined || (q.skirmishPool bracket minPlayers back pools).any movesMore) := by
  rw [BattlegroundQueue.checkSkirmishForSameFaction]
  cases hpool : q.skirmishPool bracket minPlayers back pools with
  | none => simp
  | some found => exact undefined_moveAllToOther (skirmishPool_spec hpool)

/-- Invitations leave the queues. -/
theorem inviteSelected_kept (pools : SelectionPools) (instanceID now : ℕ) :
    (q.inviteSelected pools instanceID now).undefined = q.undefined ∧
      (q.inviteSelected pools instanceID now).queuedGroups = q.queuedGroups :=
  List.foldlRecOn (motive := fun q' : BattlegroundQueue =>
    q'.undefined = q.undefined ∧ q'.queuedGroups = q.queuedGroups) _ _ ⟨rfl, rfl⟩
    fun _ h _ _ => h

theorem fillBattlegrounds_kept (req : QueueUpdate) (l : List Battleground) :
    (l.foldl (fillBattleground req) q).undefined = q.undefined ∧
      (l.foldl (fillBattleground req) q).queuedGroups = q.queuedGroups := by
  refine List.foldlRecOn (motive := fun q' : BattlegroundQueue =>
    q'.undefined = q.undefined ∧ q'.queuedGroups = q.queuedGroups) _ _ ⟨rfl, rfl⟩
    fun q' h bg _ => ?_
  rw [fillBattleground]
  split
  · obtain ⟨hundefined, hqueues⟩ := inviteSelected_kept (q := q')
      (q'.fillPlayersToBG req.bracketId bg.freeSlots req.invitationType) bg.instanceID req.now
    exact ⟨hundefined.trans h.1, hqueues.trans h.2⟩
  · exact h

theorem undefined_moveToNormal (bracket : BracketId) (timeBefore n : ℕ) (team : Team) :
    (q.moveToNormal bracket timeBefore n team).undefined = q.undefined := by
  rw [moveToNormal]
  split
  · rfl
  · split <;> rfl

theorem undefined_premadeMatch (req : QueueUpdate) (minPlayers maxPlayers : ℕ) :
    (q.premadeMatch req minPlayers maxPlayers).1.undefined = q.undefined := by
  have hcheck : (q.checkPremadeMatch req.bracketId (toU32 (req.now - req.premadeGroupWait))
      minPlayers maxPlayers fun _ => {}).1.undefined = q.undefined := by
    rw [checkPremadeMatch]
    split
    · rfl
    · exact (undefined_moveToNormal ..).trans (undefined_moveToNormal ..)
  rw [premadeMatch]
  split
  next hq =>
    rw [hq] at hcheck
    exact hcheck
  next hq =>
    rw [hq] at hcheck
    split
    · exact hcheck
    · exact (inviteSelected_kept ..).1.trans hcheck

theorem undefined_moveTeam (bracket : BracketId) (itr : ℕ × ℕ) (team : Team) :
    (q.moveTeam bracket itr team).undefined = q.undefined := by
  rw [moveTeam]
  split <;> rfl

theorem undefined_ratedMatch (req : QueueUpdate) : (q.ratedMatch req).undefined = q.undefined := by
  rw [ratedMatch]
  split
  · rfl
  · dsimp only
    split
    · exact (undefined_moveTeam ..).trans (undefined_moveTeam ..)
    · rfl

theorem undefined_removePlayer (guid : ℕ) : (q.removePlayer guid).undefined = q.undefined := by
  have hloop : ∀ (rounds : ℕ) (q : BattlegroundQueue) (guid : ℕ),
      (BattlegroundQueue.removeLoop rounds q guid).undefined = q.undefined := by
    intro rounds
    induction rounds with
    | zero => exact fun _ _ => rfl
    | succ rounds ih =>
      intro q guid
      rw [BattlegroundQueue.removeLoop]
      split
      · rfl
      · split
        · rfl
        · dsimp only
          split
          · split
            · exact ih _ _
            · rfl
          · rfl
  rw [BattlegroundQueue.removePlayer]
  split
  · rfl
  · exact hloop _ _ _

/-- The second team of the skirmish that an update of an arena finds. -/
def skirmishOf (q : BattlegroundQueue) (req : QueueUpdate) : Option (Team × ℕ × SelectionPool) :=
  match req.bgTemplate with
  | none => none
  | some bgTemplate =>
    if bgTemplate.isArena && req.bracketEntry && !req.isRated then
      let q := req.freeSlotQueue.foldl (fillBattleground req) q
      let minPlayersPerTeam := if req.isArenaTesting then 1 else req.arenaType
      let normal := q.checkNormalMatch req.bracketId minPlayersPerTeam req.arenaType
        req.invitationType req.isTesting req.beyond fun _ => {}
      if normal.2 then none
      else q.skirmishPool req.bracketId minPlayersPerTeam req.back normal.1
    else none

/-- A skirmish moves one group only. -/
def MovesOne (q : BattlegroundQueue) : QueueCall → Prop
  | .update req => (q.skirmishOf req).any movesMore = false
  | _ => True

/-- Empty queues have no second team. -/
theorem skirmishPool_empty {bracket : BracketId} {minPlayers back : ℕ} {pools : SelectionPools}
    (h : ∀ team, q.queuedGroups (bracket, .normal team) = []) :
    q.skirmishPool bracket minPlayers back pools = none := by
  simp [skirmishPool, h]

theorem undefined_normalMatch (req : QueueUpdate) (isArena : Bool) (minPlayers maxPlayers : ℕ) :
    (q.normalMatch req isArena minPlayers maxPlayers).undefined =
      (q.undefined ||
        (let normal := q.checkNormalMatch req.bracketId minPlayers maxPlayers req.invitationType
          req.isTesting req.beyond fun _ => {}
        if normal.2 || !isArena then none
        else q.skirmishPool req.bracketId minPlayers req.back normal.1).any movesMore) := by
  have hselect : (q.normalMatch req isArena minPlayers maxPlayers).undefined =
      (q.selectPools req isArena minPlayers maxPlayers).1.undefined := by
    rw [normalMatch]
    generalize q.selectPools req isArena minPlayers maxPlayers = selected
    obtain ⟨q', _ | pools⟩ := selected
    · rfl
    · rcases req.newBattleground with _ | bg2
      · rfl
      · exact (inviteSelected_kept ..).1
  rw [hselect, selectPools]
  dsimp only
  cases hnormal : (q.checkNormalMatch req.bracketId minPlayers maxPlayers req.invitationType
    req.isTesting req.beyond fun _ => {}).2 with
  | true => simp
  | false =>
    cases isArena with
    | true => simpa using undefined_checkSkirmish ..
    | false => simp

/-- An update is undefined when its skirmish moves more than one group. -/
theorem undefined_update (req : QueueUpdate) :
    (q.update req).undefined = (q.undefined || (q.skirmishOf req).any movesMore) := by
  obtain ⟨hundefined, hqueues⟩ := fillBattlegrounds_kept (q := q) req req.freeSlotQueue
  rw [BattlegroundQueue.update, skirmishOf]
  split
  next hempty =>
    -- nobody is queued
    simp only [Bool.and_eq_true, List.isEmpty_iff] at hempty
    have hnormal : ∀ team, (req.freeSlotQueue.foldl (fillBattleground req) q).queuedGroups
        (req.bracketId, .normal team) = [] := by
      intro team
      rw [hqueues]
      cases team with
      | alliance => exact hempty.1.2
      | horde => exact hempty.2
    cases req.bgTemplate with
    | none => simp
    | some bgTemplate => simp [skirmishPool_empty hnormal]
  next =>
  generalize req.freeSlotQueue.foldl (fillBattleground req) q = q1 at hundefined hqueues ⊢
  cases req.bgTemplate with
  | none => simp [hundefined]
  | some bgTemplate =>
  obtain ⟨isArena, minPlayers, maxPlayers⟩ := bgTemplate
  cases isArena with
  | false =>
    simp only [Bool.false_eq_true, if_false, Bool.false_and, any_none, Bool.or_false]
    generalize (if req.isTesting then 1 else minPlayers) = minPlayers
    split
    · exact hundefined
    split
    · exact (undefined_premadeMatch ..).trans hundefined
    split
    · rw [undefined_normalMatch]
      simpa using (undefined_premadeMatch ..).trans hundefined
    · exact (undefined_premadeMatch ..).trans hundefined
  | true =>
    cases req.bracketEntry with
    | false => simpa using hundefined
    | true =>
      cases req.isRated with
      | false =>
        simp only [if_true, Bool.not_true, Bool.false_eq_true, if_false, Bool.not_false,
          Bool.and_true]
        rw [undefined_normalMatch, hundefined]
        simp
      | true => simpa using (undefined_ratedMatch req).trans hundefined

/-- A call leaves the queue defined if its skirmish moves one group only. -/
theorem undefined_serve (h : q.undefined = false) (call : QueueCall) :
    (q.serve call).undefined = false ↔ q.MovesOne call := by
  cases call with
  | addGroup join => exact iff_of_true h trivial
  | removePlayer guid => exact iff_of_true ((undefined_removePlayer guid).trans h) trivial
  | update req =>
    change (q.update req).undefined = false ↔ _
    rw [undefined_update, h, Bool.false_or]
    rfl

/-- The queue is defined. The group of a queued player has the players that are mapped to it, and
stands once in the queues, in one of its faction. There it is found, and with its last player it is
removed. -/
def Sound (q : BattlegroundQueue) : Prop :=
  q.undefined = false ∧ ∀ guid g, q.queuedPlayers guid = some g →
    ∃ ginfo i, q.groups g = some ginfo ∧
      (∀ p, p ∈ ginfo.players ↔ q.queuedPlayers p = some g) ∧
      i.2.team = ginfo.team ∧
      (∀ j, (q.queuedGroups j).count g = if j = i then 1 else 0) ∧
      (q.findGroup g ginfo.team).map Prod.fst = some i ∧
      (ginfo.players = {guid} → (q.removePlayer guid).Gone g)

theorem Consistent.sound (h : Consistent q) (hdefined : q.undefined = false) : q.Sound := by
  refine ⟨hdefined, fun guid g hguid => ?_⟩
  obtain ⟨ps, hps, -⟩ := h.queued.1 hguid
  obtain ⟨i, hi⟩ := h.placed hps
  obtain ⟨ginfo, hginfo, rfl⟩ := map_eq_some_iff.1 hps
  have hteam : some ginfo.team = some i.2.team := by
    rw [← h.side hi, team?, hginfo, map_some]
  have hinfo : q.info g = ginfo := by
    rw [info, hginfo, getD_some]
  refine ⟨ginfo, i, hginfo, fun p => ?_, (some.inj hteam).symm,
    fun j => h.distinct.count_eq hi, ?_, fun hlast => ?_⟩
  · rw [h.queued]
    constructor
    · exact fun hp => ⟨_, hps, hp⟩
    · rintro ⟨ps, hps', hp⟩
      exact some.inj (hps.symm.trans hps') ▸ hp
  · rw [← hinfo, h.findGroup_eq hi, map_some]
  · rw [BattlegroundQueue.removePlayer, hguid]
    dsimp only
    rw [size, hinfo, hlast, Finset.card_singleton]
    exact h.removeLoop_last 0 (hlast ▸ hps)

end BattlegroundQueue

open BattlegroundQueue

/-- A player who joins an arena alone. -/
def joinAlone (leader : ℕ) : QueueCall :=
  .addGroup
    { leader, leaderTeam := .alliance, grp := none, bgTypeId := 6, bracketId := 15, arenaType := 2
      isRated := false, isPremade := false, arenaRating := 0, matchmakerRating := 0
      arenateamid := 0, now := 0 }

/-- Two players who join it together. -/
def joinTwo : QueueCall :=
  .addGroup
    { leader := 1, leaderTeam := .alliance, grp := some [1, 2], bgTypeId := 6, bracketId := 15
      arenaType := 2, isRated := false, isPremade := false, arenaRating := 0, matchmakerRating := 0
      arenateamid := 0, now := 0 }

/-- An update that creates the arena 5. -/
def updateArena (isArenaTesting : Bool) : QueueCall :=
  .update
    { bgTypeId := 6, bracketId := 15, arenaType := 2, isRated := false, arenaRating := 0
      now := 1000, freeSlotQueue := [], bgTemplate := some ⟨true, 0, 0⟩, bracketEntry := true
      invitationType := 0, premadeGroupWait := 0, isTesting := false, isArenaTesting
      maxRatingDifference := 0, ratingDiscardTimer := 0, premadeBattleground := none
      newBattleground := some 5, beyond := [], back := 0 }

/-- A rated team of two players. -/
def joinTeam : QueueCall :=
  .addGroup
    { leader := 1, leaderTeam := .horde, grp := some [1, 2], bgTypeId := 6, bracketId := 15
      arenaType := 2, isRated := true, isPremade := false, arenaRating := 1500
      matchmakerRating := 1500, arenateamid := 3, now := 0 }

end MistyWorld
