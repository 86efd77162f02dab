import MistyWorld.DungeonFinder

/-!
# The players of proposals

A proposal of the dungeon finder is `Held` when its players and their groups are in proposal state,
and the players are still in the groups with which they are queued. In a `Sound` state all
proposals are, and nobody is in two of them. What is written for others keeps this
(`Sound.of_sameOn`), and so do answers, removals and ticks that make one proposal at most.

Of several proposals that one tick makes, only the players of the last one are seen, and those of
the others stay queued (`not_inProposal_twoGroups`) : with matches of different players, a tick
leaves all players of proposals in proposal state exactly when it makes one at most
(`Sound.search_iff`). In every run with such ticks, in which other functions do not write for
whoever is in a proposal, they always are (`inProposal_run`).
-/

open Keyed Function List Machine

namespace MistyWorld

/-! ## Frames -/

variable {guid : LfgGuid}

namespace LfgProposal

/-- The players with their groups. -/
def members (proposal : LfgProposal) : List (ℕ × Option ℕ) :=
  proposal.players.map fun p => (p.guid, p.group)

theorem mem_guids {proposal : LfgProposal} : guid ∈ proposal.guids ↔
    ∃ p ∈ proposal.players, guid = .player p.guid ∨
      ∃ group, p.group = some group ∧ guid = .group group := by
  simp only [guids, mem_flatMap, mem_cons, Option.mem_toList, Option.map_eq_some_iff,
    eq_comm]

theorem guids_eq (proposal : LfgProposal) : proposal.guids =
    proposal.members.flatMap fun m => .player m.1 :: (m.2.map LfgGuid.group).toList := by
  rw [guids, members, flatMap_map]

theorem guids_congr {a b : LfgProposal} (h : a.members = b.members) : a.guids = b.guids := by
  rw [guids_eq, guids_eq, h]

theorem members_answer (proposal : LfgProposal) (guid : ℕ) (accept : LfgAnswer) :
    (proposal.answer guid accept).members = proposal.members := by
  rw [members, answer, map_map]
  refine map_congr_left fun p _ => ?_
  dsimp only [Function.comp_apply]
  split <;> rfl

theorem members_close (proposal : LfgProposal) (type : LfgRemoval) :
    (proposal.close type).members = proposal.members := by
  rw [members, close, map_map]
  refine map_congr_left fun p _ => ?_
  dsimp only [Function.comp_apply]
  split <;> rfl

end LfgProposal

namespace LfgMgr

/-- Nothing is written for the guids, and no proposal is made or removed. -/
structure SameOn (guids : List LfgGuid) (s s' : LfgMgr) : Prop where
  data : ∀ guid ∈ guids, s'.data guid = s.data guid
  group : ∀ player, LfgGuid.player player ∈ guids → s'.group player = s.group player

variable {s s' : LfgMgr} {guids : List LfgGuid} {p : LfgProposalPlayer}

theorem SameOn.refl (guids : List LfgGuid) (s : LfgMgr) : SameOn guids s s :=
  ⟨fun _ _ => rfl, fun _ _ => rfl⟩

theorem SameOn.trans {s'' : LfgMgr} (h : SameOn guids s s') (h' : SameOn guids s' s'') :
    SameOn guids s s'' :=
  ⟨fun guid hguid => (h'.data guid hguid).trans (h.data guid hguid),
    fun player hplayer => (h'.group player hplayer).trans (h.group player hplayer)⟩

theorem sameOn_setState (hguid : guid ∉ guids) (state : LfgState) :
    SameOn guids s (s.setState guid state) :=
  ⟨fun _ h => update_of_ne (ne_of_mem_of_not_mem h hguid) _ _, fun _ _ => rfl⟩

theorem sameOn_restoreState (hguid : guid ∉ guids) : SameOn guids s (s.restoreState guid) :=
  ⟨fun _ h => update_of_ne (ne_of_mem_of_not_mem h hguid) _ _, fun _ _ => rfl⟩

theorem sameOn_write {w : LfgWrite} (hw : ∀ guid, w.guid = some guid → guid ∉ guids) :
    SameOn guids s (s.write w) := by
  cases w with
  | setState guid state => exact sameOn_setState (hw guid rfl) state
  | restoreState guid => exact sameOn_restoreState (hw guid rfl)
  | setGroup player group =>
    refine ⟨fun _ _ => rfl, fun player' h => update_of_ne (fun heq => ?_) _ _⟩
    exact hw _ rfl (heq ▸ h)
  | setLeader group leader => exact ⟨fun _ _ => rfl, fun _ _ => rfl⟩

theorem SameOn.foldl {α : Type} {step : LfgMgr → α → LfgMgr} {l : List α}
    (hstep : ∀ s, ∀ x ∈ l, SameOn guids s (step s x)) (s : LfgMgr) :
    SameOn guids s (l.foldl step s) := by
  induction l generalizing s with
  | nil => exact .refl guids s
  | cons x l ih =>
    refine (hstep s x mem_cons_self).trans ?_
    exact ih (fun s y hy => hstep s y (mem_cons_of_mem x hy)) _

theorem sameOn_settle {toRemove : List LfgGuid} (hplayer : LfgGuid.player p.guid ∉ guids)
    (hgroup : ∀ group, p.group = some group → LfgGuid.group group ∉ guids) :
    SameOn guids s (settle toRemove s p) := by
  rw [settle]
  split
  · dsimp only
    split
    next hg => exact (sameOn_restoreState hplayer).trans (sameOn_restoreState (hgroup _ hg))
    next => exact sameOn_restoreState hplayer
  · dsimp only
    split
    next hg => exact (sameOn_setState hplayer _).trans (sameOn_setState (hgroup _ hg) _)
    next => exact sameOn_setState hplayer _

/-! ## The invariant -/

/-- A proposal is held : its players and groups are in proposal state, and the players are still in
their groups. -/
structure Held (s : LfgMgr) (proposal : LfgProposal) : Prop where
  state : ∀ guid ∈ proposal.guids, s.getState guid = .proposal
  group : ∀ p ∈ proposal.players, s.group p.guid = p.group

/-- The proposals are held, and nobody is in two of them. -/
structure Sound (s : LfgMgr) : Prop where
  held : ∀ proposal ∈ s.proposals, s.Held proposal
  apart : s.proposals.Pairwise fun a b => ∀ guid ∈ a.guids, guid ∉ b.guids
  ids : s.proposals.Pairwise fun a b => a.id < b.id
  last : ∀ proposal ∈ s.proposals, proposal.id ≤ s.lfgProposalId
  initiating : ∀ proposal ∈ s.proposals, proposal.state = .initiating

theorem sound_empty : Sound {} where
  held _ h := absurd h not_mem_nil
  apart := .nil
  ids := .nil
  last _ h := absurd h not_mem_nil
  initiating _ h := absurd h not_mem_nil

theorem Sound.inProposal (h : Sound s) : s.InProposal := by
  intro proposal hproposal p hp
  obtain ⟨hstate, hgroup⟩ := h.held proposal hproposal
  refine ⟨hstate _ (LfgProposal.mem_guids.2 ⟨p, hp, .inl rfl⟩), fun group hg => ?_⟩
  rw [hgroup p hp] at hg
  exact hstate _ (LfgProposal.mem_guids.2 ⟨p, hp, .inr ⟨group, hg, rfl⟩⟩)

variable {proposal a b : LfgProposal}

theorem Held.of_sameOn (h : s.Held proposal) (hs : SameOn proposal.guids s s') :
    s'.Held proposal := by
  refine ⟨fun guid hguid => ?_, fun p hp => ?_⟩
  · rw [getState, hs.data guid hguid]
    exact h.state guid hguid
  · rw [hs.group p.guid (LfgProposal.mem_guids.2 ⟨p, hp, .inl rfl⟩)]
    exact h.group p hp

theorem Held.of_members (h : s.Held a) (hmembers : b.members = a.members) : s.Held b := by
  refine ⟨LfgProposal.guids_congr hmembers ▸ h.state, fun p hp => ?_⟩
  have hmem : (p.guid, p.group) ∈ a.members := by
    rw [← hmembers]
    exact mem_map_of_mem hp
  obtain ⟨p', hp', heq⟩ := mem_map.1 hmem
  obtain ⟨hguid, hgroup⟩ := Prod.mk.inj heq
  rw [← hguid, ← hgroup]
  exact h.group p' hp'

/-- Some proposals are left, and nothing is written for them. -/
theorem Sound.of_sameOn (h : Sound s) (hsub : s'.proposals.Sublist s.proposals)
    (hid : s'.lfgProposalId = s.lfgProposalId)
    (hs : ∀ proposal ∈ s'.proposals, SameOn proposal.guids s s') : Sound s' where
  held proposal hmem := (h.held proposal (hsub.subset hmem)).of_sameOn (hs proposal hmem)
  apart := h.apart.sublist hsub
  ids := h.ids.sublist hsub
  last proposal hmem := hid ▸ h.last proposal (hsub.subset hmem)
  initiating proposal hmem := h.initiating proposal (hsub.subset hmem)

theorem Sound.apart_of_ne (h : Sound s) (ha : a ∈ s.proposals) (hb : b ∈ s.proposals)
    (hne : a.id ≠ b.id) : ∀ guid ∈ a.guids, guid ∉ b.guids := by
  have hsymm : Std.Symm fun a b : LfgProposal => ∀ guid ∈ a.guids, guid ∉ b.guids :=
    ⟨fun a b hab guid hguid hguid' => hab guid hguid' hguid⟩
  exact h.apart.forall ha hb fun heq => hne (congrArg LfgProposal.id heq)

/-! ## Answers and removals -/

/-- No proposal is made, removed or answered. -/
def SameStore (s s' : LfgMgr) : Prop :=
  s'.proposals = s.proposals ∧ s'.lfgProposalId = s.lfgProposalId

theorem SameStore.trans {s'' : LfgMgr} (h : SameStore s s') (h' : SameStore s' s'') :
    SameStore s s'' :=
  ⟨h'.1.trans h.1, h'.2.trans h.2⟩

theorem SameStore.foldl {α : Type} {step : LfgMgr → α → LfgMgr}
    (hstep : ∀ s x, SameStore s (step s x)) (l : List α) (s : LfgMgr) :
    SameStore s (l.foldl step s) := by
  induction l generalizing s with
  | nil => exact ⟨rfl, rfl⟩
  | cons x l ih => exact (hstep s x).trans (ih _)

theorem sameStore_write (s : LfgMgr) (w : LfgWrite) : SameStore s (s.write w) := by
  cases w <;> exact ⟨rfl, rfl⟩

theorem sameStore_settle (toRemove : List LfgGuid) (s : LfgMgr) (p : LfgProposalPlayer) :
    SameStore s (settle toRemove s p) := by
  rw [settle]
  split <;> dsimp only <;> split <;> exact ⟨rfl, rfl⟩

/-- Other functions do not write for the proposals. -/
theorem Sound.of_sameStore (h : Sound s) (hstore : SameStore s s')
    (hs : ∀ proposal ∈ s.proposals, SameOn proposal.guids s s') : Sound s' := by
  obtain ⟨hprops, hid⟩ := hstore
  exact h.of_sameOn (hprops ▸ List.Sublist.refl _) hid fun proposal hmem =>
    hs proposal (hprops ▸ hmem)

/-- A proposal is erased, and nothing is written for the others. -/
theorem Sound.erase (h : Sound s) {id : ℕ} (hstore : SameStore s s')
    (hs : ∀ proposal ∈ s.proposals, proposal.id ≠ id → SameOn proposal.guids s s') :
    Sound { s' with proposals := remove LfgProposal.id s'.proposals id } := by
  obtain ⟨hprops, hid⟩ := hstore
  refine h.of_sameOn ?_ hid fun proposal hmem => ?_
  · rw [← hprops]
    exact filter_sublist
  · obtain ⟨hmem', hne⟩ := mem_remove.1 hmem
    obtain ⟨hdata, hgroup⟩ := hs proposal (hprops ▸ hmem') hne
    exact ⟨hdata, hgroup⟩

/-- A proposal of the store, whatever was answered, is removed. -/
theorem Sound.removeProposal (h : Sound s) (ha : a ∈ s.proposals) (hid : b.id = a.id)
    (hmembers : b.members = a.members) (type : LfgRemoval) : Sound (s.removeProposal b type) := by
  refine h.erase (SameStore.foldl (sameStore_settle _) _ s) fun proposal hmem hne => ?_
  have hapart := h.apart_of_ne ha hmem (hid ▸ hne.symm)
  have hguids : (b.close type).guids = a.guids :=
    LfgProposal.guids_congr ((LfgProposal.members_close b type).trans hmembers)
  refine SameOn.foldl (fun s p hp => sameOn_settle (hapart _ ?_) fun group hg => hapart _ ?_) s
  · exact hguids ▸ LfgProposal.mem_guids.2 ⟨p, hp, .inl rfl⟩
  · exact hguids ▸ LfgProposal.mem_guids.2 ⟨p, hp, .inr ⟨group, hg, rfl⟩⟩

theorem members_answered (proposalId guid : ℕ) (accept : LfgAnswer) (proposal : LfgProposal) :
    (if proposal.id = proposalId then proposal.answer guid accept else proposal).members =
      proposal.members := by
  split
  · exact LfgProposal.members_answer proposal guid accept
  · rfl

theorem id_answered (proposalId guid : ℕ) (accept : LfgAnswer) (proposal : LfgProposal) :
    (if proposal.id = proposalId then proposal.answer guid accept else proposal).id =
      proposal.id := by
  split <;> rfl

/-- The answer of a player keeps the finder sound. -/
theorem Sound.answer (h : Sound s) (proposalId guid : ℕ) (accept : LfgAnswer) :
    Sound (s.answer proposalId guid accept) := by
  have hguids : ∀ proposal : LfgProposal, (if proposal.id = proposalId then
      proposal.answer guid accept else proposal).guids = proposal.guids := fun proposal =>
    LfgProposal.guids_congr (members_answered proposalId guid accept proposal)
  constructor
  · intro proposal' hmem
    obtain ⟨proposal, hproposal, rfl⟩ := mem_map.1 hmem
    have hheld := (h.held proposal hproposal).of_members
      (members_answered proposalId guid accept proposal)
    exact ⟨hheld.state, hheld.group⟩
  · refine pairwise_map.2 (h.apart.imp fun {a b} hab => ?_)
    rwa [hguids, hguids]
  · refine pairwise_map.2 (h.ids.imp fun {a b} hab => ?_)
    rwa [id_answered, id_answered]
  · intro proposal' hmem
    obtain ⟨proposal, hproposal, rfl⟩ := mem_map.1 hmem
    rw [id_answered]
    exact h.last proposal hproposal
  · intro proposal' hmem
    obtain ⟨proposal, hproposal, rfl⟩ := mem_map.1 hmem
    have hstate := h.initiating proposal hproposal
    split <;> exact hstate

theorem Sound.updateProposal (h : Sound s) (proposalId guid : ℕ) (accept : Bool)
    {madeGroup : List LfgWrite} (hmade : ∀ w ∈ madeGroup, ∀ guid, w.guid = some guid →
      ∀ proposal ∈ s.proposals, proposal.id ≠ proposalId → guid ∉ proposal.guids) :
    Sound (s.updateProposal proposalId guid accept madeGroup) := by
  rw [LfgMgr.updateProposal]
  split
  · exact h
  next proposal hfind =>
  split
  · exact h
  obtain ⟨hmem, hid⟩ := mem_of_find hfind
  dsimp only
  generalize (if accept = true then LfgAnswer.agree else .deny) = given
  have hanswered := h.answer proposalId guid given
  have hmem' : proposal.answer guid given ∈ (s.answer proposalId guid given).proposals :=
    mem_map.2 ⟨proposal, hmem, if_pos hid⟩
  split
  · exact hanswered.removeProposal hmem' rfl rfl _
  · split
    · have hdungeon : ∀ (s : LfgMgr) (p : LfgProposalPlayer),
          SameStore s (s.setState (.player p.guid) .dungeon) := fun _ _ => ⟨rfl, rfl⟩
      refine hanswered.erase ((SameStore.foldl hdungeon _ _).trans
        (SameStore.foldl sameStore_write _ _)) fun other hother hne => ?_
      have hapart := hanswered.apart_of_ne hmem' hother (hid ▸ hne.symm)
      refine (SameOn.foldl (fun s p hp => sameOn_setState (hapart _ ?_) _) _).trans
        (SameOn.foldl (fun s w hw => sameOn_write fun guid' hguid' => ?_) _)
      · exact LfgProposal.mem_guids.2 ⟨p, hp, .inl rfl⟩
      · obtain ⟨old, hold, rfl⟩ := mem_map.1 hother
        rw [id_answered] at hne
        rw [LfgProposal.guids_congr (members_answered proposalId guid given old)]
        exact hmade w hw guid' hguid' old hold hne
    · exact hanswered

theorem Sound.leaveLfg (h : Sound s) (guid : LfgGuid) : Sound (s.leaveLfg guid) := by
  rw [LfgMgr.leaveLfg]
  split
  · split
    · exact h
    next proposal hfind =>
      have hmembers := LfgProposal.members_answer proposal (s.leaver guid) .deny
      refine h.removeProposal (mem_of_find?_eq_some hfind) ?_ hmembers _
      rfl
  · exact h

/-! ## The update -/

/-- Obsolete proposals are removed, one after the other. -/
theorem Sound.removeAll : ∀ {l : List LfgProposal} {s : LfgMgr}, Sound s → l ⊆ s.proposals →
    l.Pairwise (fun a b => a.id < b.id) →
    Sound (l.foldl (fun s proposal => s.removeProposal proposal .failed) s) ∧
      (l.foldl (fun s proposal => s.removeProposal proposal .failed) s).proposals ⊆ s.proposals
  | [], s, h, _, _ => ⟨h, List.Subset.refl _⟩
  | a :: l, s, h, hl, hids => by
    obtain ⟨hlt, hrest⟩ := pairwise_cons.1 hids
    have ha : a ∈ s.proposals := hl mem_cons_self
    have hprops : (s.removeProposal a .failed).proposals =
        remove LfgProposal.id s.proposals a.id := by
      have hstore := SameStore.foldl (sameStore_settle ((a.close .failed).toRemove .failed))
        (a.close .failed).players s
      exact congrArg (remove LfgProposal.id · a.id) hstore.1
    have hsub : (s.removeProposal a .failed).proposals ⊆ s.proposals := by
      rw [hprops]
      exact fun b hb => (mem_remove.1 hb).1
    have hleft : l ⊆ (s.removeProposal a .failed).proposals := fun b hb => by
      rw [hprops]
      exact mem_remove.2 ⟨hl (mem_cons_of_mem a hb), (hlt b hb).ne'⟩
    obtain ⟨hsound, hsub'⟩ := (h.removeProposal ha rfl rfl .failed).removeAll hleft hrest
    exact ⟨hsound, List.Subset.trans hsub' hsub⟩

theorem Sound.expire (h : Sound s) (tick : LfgTick)
    (hfree : ∀ guid ∈ tick.roleChecks ++ tick.boots, s.Free guid) : Sound (s.expire tick) := by
  have hrestore : ∀ (s : LfgMgr) (guid : LfgGuid), SameStore s (s.restoreState guid) :=
    fun _ _ => ⟨rfl, rfl⟩
  have hboot : ∀ (s : LfgMgr) (guid : LfgGuid), SameStore s (s.setState guid .dungeon) :=
    fun _ _ => ⟨rfl, rfl⟩
  have hstore := SameStore.foldl hrestore tick.roleChecks s
  have hrestored : Sound (tick.roleChecks.foldl restoreState s) :=
    h.of_sameStore hstore fun proposal hmem => SameOn.foldl (fun s guid hguid =>
      sameOn_restoreState (hfree guid (mem_append_left _ hguid) proposal hmem)) s
  rw [LfgMgr.expire]
  generalize tick.roleChecks.foldl restoreState s = s1 at *
  obtain ⟨hremoved, hsub⟩ := hrestored.removeAll
    (filter_subset_self _) (hrestored.ids.sublist filter_sublist)
  refine hremoved.of_sameStore (SameStore.foldl hboot _ _) fun proposal hmem =>
    SameOn.foldl (fun s guid hguid => sameOn_setState ?_ _) _
  exact hfree guid (mem_append_right _ hguid) proposal (hstore.1 ▸ hsub hmem)

theorem group_expire (s : LfgMgr) (tick : LfgTick) : (s.expire tick).group = s.group := by
  have hfold : ∀ {α : Type} {step : LfgMgr → α → LfgMgr}, (∀ s x, (step s x).group = s.group) →
      ∀ (l : List α) (s : LfgMgr), (l.foldl step s).group = s.group := by
    intro α step hstep l
    induction l with
    | nil => exact fun _ => rfl
    | cons x l ih => exact fun s => (ih _).trans (hstep s x)
  have hsettle : ∀ toRemove s p, (settle toRemove s p).group = s.group := by
    intro toRemove s p
    rw [settle]
    split <;> dsimp only <;> split <;> rfl
  have hremove : ∀ (s : LfgMgr) (proposal : LfgProposal),
      (s.removeProposal proposal .failed).group = s.group := fun s proposal =>
    hfold (hsettle _) _ s
  have hrestore : ∀ (s : LfgMgr) (guid : LfgGuid), (s.restoreState guid).group = s.group :=
    fun _ _ => rfl
  have hboot : ∀ (s : LfgMgr) (guid : LfgGuid), (s.setState guid .dungeon).group = s.group :=
    fun _ _ => rfl
  exact (hfold hboot tick.boots _).trans
    ((hfold hremove _ _).trans (hfold hrestore tick.roleChecks s))

/-- The proposals are made of the matches whose guids are queued. -/
theorem foldl_findMatch (found : List LfgProposal) (s : LfgMgr) : found.foldl findMatch s =
    (s.matched found).foldl (fun s proposal =>
      s.addProposal { proposal with state := .initiating }) s := by
  induction found generalizing s with
  | nil => rfl
  | cons proposal found ih =>
    rw [foldl_cons, findMatch, matched, filter_cons]
    split
    · exact ih _
    · exact ih _

theorem getState_setState_self (guid : LfgGuid) :
    (s.setState guid .proposal).getState guid = .proposal :=
  congrArg LfgData.state (update_self guid _ s.data)

theorem getState_setState {guid' : LfgGuid} (h : s.getState guid = .proposal) :
    (s.setState guid' .proposal).getState guid = .proposal := by
  by_cases heq : guid = guid'
  · rw [heq]
    exact getState_setState_self guid'
  · exact (congrArg LfgData.state (update_of_ne heq _ s.data)).trans h

theorem getState_beginPlayer (p : LfgProposalPlayer) (h : s.getState guid = .proposal) :
    (s.beginPlayer p).getState guid = .proposal := by
  rw [beginPlayer]
  split
  · exact getState_setState (getState_setState h)
  · exact getState_setState h

/-- A player begins, with the group he has. -/
theorem beginPlayer_spec (p : LfgProposalPlayer) :
    (s.beginPlayer p).getState (.player p.guid) = .proposal ∧
      ∀ group, s.group p.guid = some group →
        (s.beginPlayer p).getState (.group group) = .proposal := by
  rw [beginPlayer]
  split
  next group hgroup =>
    refine ⟨getState_setState (getState_setState_self _), fun group' hgroup' => ?_⟩
    obtain rfl := Option.some.inj (hgroup.symm.trans hgroup')
    exact getState_setState_self _
  next hgroup =>
    refine ⟨getState_setState_self _, fun group' hgroup' => ?_⟩
    exact absurd (hgroup.symm.trans hgroup') (by simp)

theorem group_beginPlayer (p : LfgProposalPlayer) : (s.beginPlayer p).group = s.group := by
  rw [beginPlayer]
  split <;> rfl

theorem sameStore_beginPlayer (s : LfgMgr) (p : LfgProposalPlayer) :
    SameStore s (s.beginPlayer p) := by
  rw [beginPlayer]
  split <;> exact ⟨rfl, rfl⟩

theorem sameOn_beginPlayer (hplayer : LfgGuid.player p.guid ∉ guids)
    (hgroup : ∀ group, s.group p.guid = some group → LfgGuid.group group ∉ guids) :
    SameOn guids s (s.beginPlayer p) := by
  rw [beginPlayer]
  split
  next hg => exact (sameOn_setState hplayer _).trans (sameOn_setState (hgroup _ hg) _)
  next => exact sameOn_setState hplayer _

theorem sameOn_beginPlayers : ∀ (l : List LfgProposalPlayer) (s : LfgMgr),
    (∀ p ∈ l, LfgGuid.player p.guid ∉ guids ∧
      ∀ group, s.group p.guid = some group → LfgGuid.group group ∉ guids) →
    SameOn guids s (l.foldl beginPlayer s)
  | [], s, _ => .refl guids s
  | p :: l, s, h => by
    obtain ⟨hplayer, hgroup⟩ := h p mem_cons_self
    refine (sameOn_beginPlayer hplayer hgroup).trans (sameOn_beginPlayers l _ fun p' hp' => ?_)
    rw [group_beginPlayer]
    exact h p' (mem_cons_of_mem p hp')

/-- After the loop over the players of a new proposal, they are in proposal state. -/
theorem beginPlayers_spec : ∀ (l : List LfgProposalPlayer) (s : LfgMgr),
    (l.foldl beginPlayer s).group = s.group ∧
    (∀ guid, s.getState guid = .proposal → (l.foldl beginPlayer s).getState guid = .proposal) ∧
    ∀ p ∈ l, (l.foldl beginPlayer s).getState (.player p.guid) = .proposal ∧
      ∀ group, s.group p.guid = some group →
        (l.foldl beginPlayer s).getState (.group group) = .proposal
  | [], s => ⟨rfl, fun _ h => h, fun _ hp => absurd hp not_mem_nil⟩
  | p :: l, s => by
    obtain ⟨hgroup, hkeep, hbegin⟩ := beginPlayers_spec l (s.beginPlayer p)
    rw [group_beginPlayer] at hgroup hbegin
    refine ⟨hgroup, fun guid h => hkeep guid (getState_beginPlayer p h), fun p' hp' => ?_⟩
    rcases mem_cons.1 hp' with rfl | hp'
    · obtain ⟨hplayer, hgroups⟩ := beginPlayer_spec (s := s) p'
      exact ⟨hkeep _ hplayer, fun group hg => hkeep _ (hgroups group hg)⟩
    · exact hbegin p' hp'

/-- Whoever is in a match is in no proposal : he is queued, or his group is. -/
theorem Sound.free_of_wellFormed (h : Sound s) (hwell : s.WellFormed proposal)
    (hqueued : s.allQueued proposal.queues = true) (hp : p ∈ proposal.players) :
    s.Free (.player p.guid) ∧ ∀ group, p.group = some group → s.Free (.group group) := by
  obtain ⟨hgroup, hmem⟩ := hwell p hp
  have hstate : s.getState p.queueGuid = .queued := by
    have hall := (Bool.and_eq_true_iff.1 hqueued).2
    simpa using all_eq_true.1 hall _ hmem
  have hfree : s.Free p.queueGuid := fun a ha hguid => by
    rw [(h.held a ha).state _ hguid] at hstate
    exact absurd hstate (by simp)
  rw [LfgProposalPlayer.queueGuid] at hfree
  rcases hg : p.group with _ | group
  · rw [hg] at hfree
    exact ⟨hfree, fun _ hsome => absurd hsome (by simp)⟩
  · rw [hg] at hfree
    refine ⟨fun a ha hguid => ?_, fun group' heq => Option.some.inj heq ▸ hfree⟩
    obtain ⟨p', hp', heq | ⟨group', -, heq⟩⟩ := LfgProposal.mem_guids.1 hguid
    · have hsame : s.group p'.guid = some group := by
        rw [← LfgGuid.player.inj heq, hgroup, hg]
      have hgroup' := (h.held a ha).group p' hp'
      refine hfree a ha (LfgProposal.mem_guids.2 ⟨p', hp', .inr ⟨group, ?_, rfl⟩⟩)
      rw [← hgroup', hsame]
    · exact absurd heq (by simp)

/-- A match is made a proposal, and begins. -/
theorem Sound.begin (h : Sound s) (hwell : s.WellFormed proposal)
    (hqueued : s.allQueued proposal.queues = true) : Sound (proposal.players.foldl beginPlayer
      (s.addProposal { proposal with state := .initiating })) := by
  have hfree := fun {p} => h.free_of_wellFormed (p := p) hwell hqueued
  have hstore := SameStore.foldl sameStore_beginPlayer proposal.players
    (s.addProposal { proposal with state := .initiating })
  obtain ⟨hgroup, -, hbegin⟩ := beginPlayers_spec proposal.players
    (s.addProposal { proposal with state := .initiating })
  have hsame : ∀ a ∈ s.proposals, SameOn a.guids s (proposal.players.foldl beginPlayer
      (s.addProposal { proposal with state := .initiating })) := by
    intro a ha
    have hadd : SameOn a.guids s (s.addProposal { proposal with state := .initiating }) :=
      ⟨fun _ _ => rfl, fun _ _ => rfl⟩
    refine hadd.trans (sameOn_beginPlayers _ _ fun p hp => ⟨(hfree hp).1 a ha, fun group hg => ?_⟩)
    exact (hfree hp).2 group ((hwell p hp).1 ▸ hg) a ha
  generalize proposal.players.foldl beginPlayer
    (s.addProposal { proposal with state := .initiating }) = s' at *
  obtain ⟨hprops, hid⟩ := hstore
  change s'.proposals = s.proposals ++
    [{ proposal with id := s.lfgProposalId + 1, state := .initiating }] at hprops
  have hmem : ∀ {a}, a ∈ s'.proposals → a ∈ s.proposals ∨
      a = { proposal with id := s.lfgProposalId + 1, state := .initiating } := fun ha => by
    rw [hprops, mem_append, mem_singleton] at ha
    exact ha
  constructor
  · intro a ha
    rcases hmem ha with ha | rfl
    · exact (h.held a ha).of_sameOn (hsame a ha)
    · refine ⟨fun guid hguid => ?_, fun p hp => ?_⟩
      · obtain ⟨p, hp, rfl | ⟨group, hg, rfl⟩⟩ := LfgProposal.mem_guids.1 hguid
        · exact (hbegin p hp).1
        · exact (hbegin p hp).2 group ((hwell p hp).1.trans hg)
      · rw [hgroup]
        exact (hwell p hp).1
  · rw [hprops]
    refine pairwise_append.2 ⟨h.apart, pairwise_singleton _ _, fun a ha b hb => ?_⟩
    rw [mem_singleton.1 hb]
    intro guid hguid hnew
    obtain ⟨p, hp, rfl | ⟨group, hg, rfl⟩⟩ := LfgProposal.mem_guids.1 hnew
    · exact (hfree hp).1 a ha hguid
    · exact (hfree hp).2 group hg a ha hguid
  · rw [hprops]
    refine pairwise_append.2 ⟨h.ids, pairwise_singleton _ _, fun a ha b hb => ?_⟩
    rw [mem_singleton.1 hb]
    exact Nat.lt_succ_of_le (h.last a ha)
  · intro a ha
    rw [hid]
    rcases hmem ha with ha | rfl
    · exact Nat.le_succ_of_le (h.last a ha)
    · exact le_refl _
  · intro a ha
    rcases hmem ha with ha | rfl
    · exact h.initiating a ha
    · rfl

/-- The loop over the new proposals sees the last one only. -/
theorem dropWhile_addProposal (hlast : ∀ a ∈ s.proposals, a.id ≤ s.lfgProposalId) :
    (s.addProposal proposal).proposals.dropWhile
      (fun a => a.id ≠ (s.addProposal proposal).lfgProposalId) =
        [{ proposal with id := s.lfgProposalId + 1 }] := by
  refine (dropWhile_append_of_pos fun a ha => ?_).trans ?_
  · have hle := hlast a ha
    refine decide_eq_true (fun heq => ?_)
    change a.id = s.lfgProposalId + 1 at heq
    omega
  · exact dropWhile_cons_of_neg (by simp [addProposal])

theorem Sound.search (h : Sound s) (tick : LfgTick)
    (hwell : ∀ proposal ∈ tick.found, s.WellFormed proposal)
    (hone : (s.matched tick.found).length ≤ 1) : Sound (s.search tick) := by
  rw [LfgMgr.search, foldl_findMatch]
  rcases hmatched : s.matched tick.found with _ | ⟨proposal, _ | ⟨b, l⟩⟩
  · rw [foldl_nil, if_neg (not_not.2 rfl)]
    exact h
  · obtain ⟨hfound, hqueued⟩ := mem_filter.1
      (hmatched ▸ mem_cons_self : proposal ∈ s.matched tick.found)
    have hnew : s.lfgProposalId + 1 ≠ s.lfgProposalId := Nat.succ_ne_self _
    rw [foldl_cons, foldl_nil]
    refine (if_pos hnew).symm ▸ ?_
    rw [dropWhile_addProposal h.last]
    exact h.begin (hwell proposal hfound) hqueued
  · rw [hmatched] at hone
    simp at hone

/-- The proposals of matches are in the store, and nothing else changes. -/
theorem addProposals_spec : ∀ (l : List LfgProposal) (s : LfgMgr),
    (∀ a ∈ s.proposals, a.id ≤ s.lfgProposalId) →
    ∃ s', l.foldl (fun s proposal => s.addProposal { proposal with state := .initiating }) s = s' ∧
      s'.data = s.data ∧ s'.group = s.group ∧ s.lfgProposalId ≤ s'.lfgProposalId ∧
      (∀ a ∈ s'.proposals, a.id ≤ s'.lfgProposalId) ∧
      s.proposals ⊆ s'.proposals ∧ ∀ a ∈ l, ∃ a' ∈ s'.proposals, a'.players = a.players
  | [], s, hlast => ⟨s, rfl, rfl, rfl, le_refl _, hlast, List.Subset.refl _,
      fun _ ha => absurd ha not_mem_nil⟩
  | b :: l, s, hlast => by
    obtain ⟨s', heq, hdata, hgroup, hle, hlast', hsub, hl⟩ := addProposals_spec l
      (s.addProposal { b with state := .initiating }) fun a ha => by
        rcases mem_append.1 ha with ha | ha
        · exact Nat.le_succ_of_le (hlast a ha)
        · rw [mem_singleton.1 ha]
          exact le_refl _
    refine ⟨s', heq, hdata, hgroup, (Nat.le_succ _).trans hle, hlast',
      List.Subset.trans (subset_append_left _ _) hsub, fun a ha => ?_⟩
    rcases mem_cons.1 ha with rfl | ha
    · exact ⟨_, hsub (mem_append_right _ mem_cons_self), rfl⟩
    · exact hl a ha

/-- Of matches of different players, a tick may make one a proposal. -/
theorem Sound.search_iff (h : Sound s) (tick : LfgTick)
    (hwell : ∀ proposal ∈ tick.found, s.WellFormed proposal)
    (hplayers : ∀ proposal ∈ tick.found, proposal.players ≠ [])
    (hapart : tick.found.Pairwise fun a b => ∀ guid ∈ a.guids, guid ∉ b.guids) :
    (s.search tick).InProposal ↔ (s.matched tick.found).length ≤ 1 := by
  refine ⟨fun hin => ?_, fun hone => (h.search tick hwell hone).inProposal⟩
  by_contra htwo
  have hfilter : (s.matched tick.found).Sublist tick.found := filter_sublist
  rw [LfgMgr.search, foldl_findMatch] at hin
  obtain ⟨l, z, hl⟩ : ∃ l z, s.matched tick.found = l ++ [z] :=
    (eq_nil_or_concat' _).resolve_left fun hnil => htwo (by rw [hnil]; exact Nat.zero_le 1)
  obtain ⟨a, ha⟩ := exists_mem_of_ne_nil l fun hnil => htwo (by
    rw [hl, hnil, nil_append, length_singleton])
  obtain ⟨hfound, hqueued⟩ := mem_filter.1
    (hl ▸ mem_append_left _ ha : a ∈ s.matched tick.found)
  have hz : z ∈ tick.found := hfilter.subset (hl ▸ mem_append_right _ mem_cons_self)
  have haz : ∀ guid ∈ a.guids, guid ∉ z.guids :=
    (pairwise_append.1 (hl ▸ hapart.sublist hfilter)).2.2 a ha z mem_cons_self
  rw [hl, foldl_append, foldl_cons, foldl_nil] at hin
  obtain ⟨s', heq, hdata, hgroup, hle, hlast, -, hstored⟩ := addProposals_spec l s h.last
  obtain ⟨a', ha', hsame⟩ := hstored a ha
  have hnew : s'.lfgProposalId + 1 ≠ s.lfgProposalId := by omega
  rw [heq] at hin
  rw [if_pos (show (s'.addProposal _).lfgProposalId ≠ s.lfgProposalId from hnew)] at hin
  rw [dropWhile_addProposal hlast] at hin
  have hstore := SameStore.foldl sameStore_beginPlayer z.players
    (s'.addProposal { z with state := .initiating })
  have hon : SameOn a.guids s (z.players.foldl beginPlayer
      (s'.addProposal { z with state := .initiating })) := by
    have hadd : SameOn a.guids s (s'.addProposal { z with state := .initiating }) :=
      ⟨fun guid _ => congrFun hdata guid, fun player _ => congrFun hgroup player⟩
    refine hadd.trans (sameOn_beginPlayers _ _ fun p hp =>
      ⟨fun hguid => ?_, fun group hg hguid => ?_⟩)
    · exact haz _ hguid (LfgProposal.mem_guids.2 ⟨p, hp, .inl rfl⟩)
    · refine haz _ hguid (LfgProposal.mem_guids.2 ⟨p, hp, .inr ⟨group, ?_, rfl⟩⟩)
      rw [← (hwell z hz p hp).1, ← hgroup]
      exact hg
  obtain ⟨p, hp⟩ := exists_mem_of_ne_nil _ (hplayers a hfound)
  have hstate : s.getState p.queueGuid = .queued := by
    have hall := (Bool.and_eq_true_iff.1 hqueued).2
    simpa using all_eq_true.1 hall _ (hwell a hfound p hp).2
  obtain ⟨hplayer, hgroups⟩ := hin a' (hstore.1 ▸ mem_append_left _ ha') p (hsame ▸ hp)
  rw [LfgProposalPlayer.queueGuid] at hstate
  rcases hg : p.group with _ | group
  · rw [hg] at hstate
    have hsame' := hon.data _ (LfgProposal.mem_guids.2 ⟨p, hp, .inl rfl⟩)
    rw [getState, ← hsame'] at hstate
    exact absurd (hplayer.symm.trans hstate) (by simp)
  · rw [hg] at hstate
    have hsame' := hon.data _ (LfgProposal.mem_guids.2 ⟨p, hp, .inr ⟨group, hg, rfl⟩⟩)
    have hgroup' := hon.group _ (LfgProposal.mem_guids.2 ⟨p, hp, .inl rfl⟩)
    rw [getState, ← hsame'] at hstate
    have hproposal := hgroups group (hgroup'.trans ((hwell a hfound p hp).1.trans hg))
    exact absurd (hproposal.symm.trans hstate) (by simp)

theorem Sound.serve (h : Sound s) {call : LfgCall} (hmeets : s.Meets call) :
    Sound (s.serve call) := by
  cases call with
  | write w =>
    exact h.of_sameStore (sameStore_write s w) fun proposal hmem =>
      sameOn_write fun guid hguid => hmeets guid hguid proposal hmem
  | updateProposal proposalId guid accept madeGroup =>
    exact h.updateProposal proposalId guid accept hmeets
  | leaveLfg guid => exact h.leaveLfg guid
  | update tick =>
    obtain ⟨hfree, hwell, hone⟩ := hmeets
    rw [LfgMgr.serve, LfgMgr.update]
    split
    · refine (h.expire tick hfree).search tick (fun proposal hproposal p hp => ?_) hone
      rw [group_expire]
      exact hwell proposal hproposal p hp
    · exact h

end LfgMgr

open LfgMgr

/-- When every tick makes one proposal at most, and nobody in a proposal is written by other
functions, the players of all proposals are in proposal state, and so are their groups. -/
theorem inProposal_run (calls : List LfgCall) (hmeets : Along LfgMgr.serve Meets {} calls) :
    (run LfgMgr.serve {} calls).InProposal := by
  have hstep : ∀ s call, Sound s → Meets s call → Sound (s.serve call) :=
    fun _ _ hs hmeets => hs.serve hmeets
  have hsound : Sound (run LfgMgr.serve {} calls) := invariant_run hstep sound_empty hmeets
  exact hsound.inProposal

/-- A player joins the queue alone. -/
def joinQueue (guid : ℕ) : LfgCall :=
  .write (.setState (.player guid) .queued)

/-- A match of players that are queued alone. -/
def matchOf (guids : List ℕ) : LfgProposal where
  cancelTime := 120
  queues := guids.map .player
  players := guids.map fun guid => { guid }

/-- Five players join, and a tick finds a group of them. -/
theorem inProposal_run_group : (run LfgMgr.serve {}
    [joinQueue 1, joinQueue 2, joinQueue 3, joinQueue 4, joinQueue 5,
      .update { currTime := 0, found := [matchOf [1, 2, 3, 4, 5]] }]).InProposal := by
  have hfree : ∀ (s : LfgMgr), s.proposals = [] → ∀ guid, s.Meets (joinQueue guid) :=
    fun s hs guid _ _ a ha => absurd (hs ▸ ha) not_mem_nil
  refine inProposal_run _ ⟨hfree _ rfl 1, hfree _ rfl 2, hfree _ rfl 3, hfree _ rfl 4,
    hfree _ rfl 5, ⟨fun _ h => absurd h not_mem_nil, ?_, by decide +kernel⟩, trivial⟩
  intro proposal hproposal p hp
  obtain rfl := mem_singleton.1 hproposal
  obtain ⟨guid, hguid, rfl⟩ := mem_map.1 hp
  exact ⟨rfl, mem_map_of_mem hguid⟩

/-- Of two groups that are found in one tick, the first one stays queued. -/
theorem not_inProposal_twoGroups : ¬(run LfgMgr.serve {} ((List.range' 1 10).map joinQueue ++
    [.update
      { currTime := 0
        found := [matchOf [1, 2, 3, 4, 5], matchOf [6, 7, 8, 9, 10]] }])).InProposal := by
  intro h
  have hstate := (h { matchOf [1, 2, 3, 4, 5] with id := 2 } (by decide +kernel) { guid := 1 }
    (by decide)).1
  exact absurd hstate (by decide +kernel)

end MistyWorld
