import MistyWorld.GuildRanks

/-!
# The rank table

`RankTable` says that the three numberings of ranks agree : the place of a rank in
`m_ranks` is its id, the rank ids of the members are places in the table, and the leader
guid names the one member of rank 0. `rankTable_run` proves it for every run from
`Guild::Create` whose calls are `Allowed`. The two calls that need a condition are
`HandleRemoveRank`, which shifts the ranks behind the removed one and leaves the members as
they are, and `HandleSetNewGuildMaster`, which writes the record of the old master last.
-/

open List Word Machine

namespace MistyWorld

namespace Guild

/-- The calls that change ranks, members or the leader. `rehash` is the freedom of the hash
map to walk the members in another order. -/
inductive TableCall
  | addNewRank (player : PlayerGuid)
  | removeRank (player : PlayerGuid) (rankId : ℕ)
  | addMember (c : Candidate) (rankId : ℕ)
  | deleteMember (guid : PlayerGuid)
  | leaveMember (player : PlayerGuid)
  | updateMemberRank (player : PlayerGuid) (guid : ℕ) (demote : Bool)
  | setNewGuildMaster (player : PlayerGuid) (name : String)
  | rehash (i : ℕ)

theorem perm_toFront (l : List Member) (i : ℕ) : (l[i]?.toList ++ l.eraseIdx i).Perm l := by
  by_cases h : i < l.length
  · rw [List.getElem?_eq_getElem h]
    exact getElem_cons_eraseIdx_perm h
  · rw [List.getElem?_eq_none (not_lt.1 h), eraseIdx_of_length_le (not_lt.1 h)]
    exact List.Perm.refl _

/-- Another order of the members : one is moved to the front. -/
def rehash (g : Guild) (i : ℕ) : Guild :=
  { g with
    members := g.members[i]?.toList ++ g.members.eraseIdx i
    members_nodup := ((perm_toFront g.members i).map _).nodup_iff.2 g.members_nodup }

/-- Serve a call. -/
def callTable (undeletableLevel : ℕ) (g : Guild) : TableCall → Option Guild
  | .addNewRank player => some (g.handleAddNewRank player)
  | .removeRank player rankId => some (g.handleRemoveRank player rankId)
  | .addMember c rankId => some (g.addMember c rankId)
  | .deleteMember guid => g.deleteMember guid false
  | .leaveMember player => g.handleLeaveMember undeletableLevel player
  | .updateMemberRank player guid demote => some (g.handleUpdateMemberRank player guid demote)
  | .setNewGuildMaster player name => some (g.handleSetNewGuildMaster player name)
  | .rehash i => some (g.rehash i)

/-- Serve a call, unless the guild is disbanded. -/
def tableStep (undeletableLevel : ℕ) (s : Option Guild) (call : TableCall) : Option Guild :=
  s.bind fun g => g.callTable undeletableLevel call

/-- The numberings of ranks agree. -/
structure RankTable (g : Guild) : Prop where
  ids : ∀ (i : ℕ) (info : RankInfo), g.ranks[i]? = some info → info.rankId = i
  member : ∀ m ∈ g.members, m.rankId < g.ranks.length
  leader : ∃ m ∈ g.members, m.guid = g.leaderGuid ∧ m.rankId = grGuildmaster
  only : ∀ m ∈ g.members, m.rankId = grGuildmaster → m.guid = g.leaderGuid

/-- The calls that keep the table. A removed rank has to be the last one, without members.
A new guild master has to be another member than the old one, who falls to rank 4. A rank
that is passed to `AddMember` has to be in the table. -/
def Allowed (g : Guild) : TableCall → Prop
  | .removeRank player rankId =>
    guildRanksMinCount < g.ranks.length → rankId < g.ranks.length → g.isLeader player →
      rankId + 1 = g.ranks.length ∧ ∀ m ∈ g.members, m.rankId ≠ rankId
  | .setNewGuildMaster player name =>
    g.isLeader player → ∀ m, g.getMemberByName name = some m →
      m.guid ≠ player ∧ grInitiate < g.ranks.length
  | .addMember _ rankId =>
    rankId = guildRankNone ∨ grGuildmaster < rankId ∧ rankId < g.ranks.length
  | _ => True

/-! ## The invariant -/

/-- The table is sound and its size is within the limits. -/
structure Sound (g : Guild) : Prop extends RankTable g where
  min : guildRanksMinCount ≤ g.ranks.length
  max : g.ranks.length ≤ guildRanksMaxCount

section Steps

variable {g : Guild} {player : PlayerGuid} {m : Member}

theorem Sound.getRanksSize (h : g.Sound) : g.getRanksSize = g.ranks.length := by
  have hmax : g.ranks.length ≤ 10 := h.max
  unfold Guild.getRanksSize toU8
  omega

theorem Sound.getLowestRankId (h : g.Sound) : g.getLowestRankId + 1 = g.ranks.length := by
  have hmax : g.ranks.length ≤ 10 := h.max
  have hmin : 2 ≤ g.ranks.length := h.min
  unfold Guild.getLowestRankId toU8
  omega

theorem RankTable.isLeader_iff (h : g.RankTable) (player : PlayerGuid) :
    g.isLeader player = true ↔ (player : ℕ) = g.leaderGuid := by
  unfold Guild.isLeader
  rw [Bool.or_eq_true, decide_eq_true_eq, or_iff_left_iff_imp]
  intro hrank
  split at hrank
  · rename_i m hm
    obtain ⟨hmem, hguid⟩ := mem_of_getMember hm
    rw [guidLopart, Nat.mod_eq_of_lt player.isLt] at hguid
    rw [← hguid]
    exact h.only m hmem (by simpa only [Member.isRank, decide_eq_true_eq] using hrank)
  · cases hrank

/-- Changing the rank of a member other than the leader to one of the table. -/
theorem Sound.changeRank (h : g.Sound) {guid n : ℕ} (hguid : guid ≠ g.leaderGuid)
    (hpos : toU8 n ≠ 0) (hlt : toU8 n < g.ranks.length) : (g.changeRank guid n).Sound where
  ids := h.ids
  member m hm := by
    by_cases hm' : m.guid = guid
    · rw [rankId_of_mem_changeRank hm hm']
      exact hlt
    · exact h.member m (mem_of_mem_changeRank_of_ne hm hm')
  leader := by
    obtain ⟨m, hm, hleader, hrank⟩ := h.leader
    exact ⟨m, mem_changeRank_of_ne hm (hleader ▸ hguid.symm), hleader, hrank⟩
  only m hm hrank := by
    by_cases hm' : m.guid = guid
    · rw [rankId_of_mem_changeRank hm hm'] at hrank
      exact absurd hrank hpos
    · exact h.only m (mem_of_mem_changeRank_of_ne hm hm') hrank
  min := h.min
  max := h.max

/-- Erasing a member other than the leader. -/
theorem Sound.eraseMember (h : g.Sound) {lowguid : ℕ} (hguid : lowguid ≠ g.leaderGuid) :
    (g.eraseMember lowguid).Sound where
  ids := h.ids
  member m hm := h.member m (mem_eraseMember.1 hm).1
  leader := by
    obtain ⟨m, hm, hleader, hrank⟩ := h.leader
    exact ⟨m, mem_eraseMember.2 ⟨hm, hleader ▸ hguid.symm⟩, hleader, hrank⟩
  only m hm hrank := h.only m (mem_eraseMember.1 hm).1 hrank
  min := h.min
  max := h.max

/-- Between the two steps of a change of leader, the old leader may still have rank 0. -/
structure Handover (g : Guild) (old : ℕ) : Prop where
  ids : ∀ (i : ℕ) (info : RankInfo), g.ranks[i]? = some info → info.rankId = i
  member : ∀ m ∈ g.members, m.rankId < g.ranks.length
  leader : ∃ m ∈ g.members, m.guid = g.leaderGuid ∧ m.rankId = grGuildmaster
  only : ∀ m ∈ g.members, m.rankId = grGuildmaster → m.guid = g.leaderGuid ∨ m.guid = old
  ne : old ≠ g.leaderGuid
  min : guildRanksMinCount ≤ g.ranks.length
  max : g.ranks.length ≤ guildRanksMaxCount

theorem Sound.setLeaderGUID (h : g.Sound) (hm : m ∈ g.members) (hne : m.guid ≠ g.leaderGuid) :
    (g.setLeaderGUID m).Handover g.leaderGuid where
  ids := h.ids
  member m' hm' := by
    have hmin : 2 ≤ g.ranks.length := h.min
    by_cases hguid : m'.guid = m.guid
    · have hrank : m'.rankId = 0 := rankId_of_mem_changeRank hm' hguid
      have hlen : (g.setLeaderGUID m).ranks.length = g.ranks.length := rfl
      omega
    · exact h.member m' (mem_of_mem_changeRank_of_ne hm' hguid)
  leader := ⟨m.changeRank grGuildmaster, mem_changeRank.2 ⟨m, hm, if_pos rfl⟩, rfl, rfl⟩
  only m' hm' hrank := by
    by_cases hguid : m'.guid = m.guid
    · exact .inl hguid
    · exact .inr (h.only m' (mem_of_mem_changeRank_of_ne hm' hguid) hrank)
  ne := hne.symm
  min := h.min
  max := h.max

theorem Handover.eraseMember {old : ℕ} (h : g.Handover old) : (g.eraseMember old).Sound where
  ids := h.ids
  member m hm := h.member m (mem_eraseMember.1 hm).1
  leader := by
    obtain ⟨m, hm, hleader, hrank⟩ := h.leader
    exact ⟨m, mem_eraseMember.2 ⟨hm, hleader ▸ h.ne.symm⟩, hleader, hrank⟩
  only m hm hrank := by
    obtain ⟨hm, hne⟩ := mem_eraseMember.1 hm
    exact (h.only m hm hrank).resolve_right hne
  min := h.min
  max := h.max

theorem Handover.changeRank {old n : ℕ} (h : g.Handover old) (hpos : toU8 n ≠ 0)
    (hlt : toU8 n < g.ranks.length) : (g.changeRank old n).Sound where
  ids := h.ids
  member m hm := by
    by_cases hm' : m.guid = old
    · rw [rankId_of_mem_changeRank hm hm']
      exact hlt
    · exact h.member m (mem_of_mem_changeRank_of_ne hm hm')
  leader := by
    obtain ⟨m, hm, hleader, hrank⟩ := h.leader
    exact ⟨m, mem_changeRank_of_ne hm (hleader ▸ h.ne.symm), hleader, hrank⟩
  only m hm hrank := by
    by_cases hm' : m.guid = old
    · rw [rankId_of_mem_changeRank hm hm'] at hrank
      exact absurd hrank hpos
    · exact (h.only m (mem_of_mem_changeRank_of_ne hm hm') hrank).resolve_right hm'
  min := h.min
  max := h.max

theorem newLeader_mem {lowguid : ℕ} : ∀ {ms : List Member} {best : Option Member},
    newLeader lowguid best ms = some m → best = some m ∨ m ∈ ms ∧ m.guid ≠ lowguid
  | [], _, h => .inl h
  | m' :: ms, best, h => by
    unfold newLeader at h
    have lift : ∀ {b : Option Member}, newLeader lowguid b ms = some m →
        b = some m ∨ m ∈ m' :: ms ∧ m.guid ≠ lowguid := fun h =>
      (newLeader_mem h).imp_right fun hm => ⟨mem_cons_of_mem _ hm.1, hm.2⟩
    split_ifs at h with hguid
    · exact lift h
    cases best with
    | none =>
      rcases lift h with heq | hm
      · cases heq
        exact .inr ⟨mem_cons_self, hguid⟩
      · exact .inr hm
    | some b =>
      rcases lift h with heq | hm
      · split_ifs at heq
        · cases heq
          exact .inr ⟨mem_cons_self, hguid⟩
        · exact .inl heq
      · exact .inr hm

section

variable (h : g.Sound)
include h

theorem Sound.deleteMember (guid : PlayerGuid) {g' : Guild}
    (hdel : g.deleteMember guid false = some g') : g'.Sound := by
  have hlow : guidLopart guid = guid := Nat.mod_eq_of_lt guid.isLt
  unfold Guild.deleteMember at hdel
  rw [hlow] at hdel
  split_ifs at hdel with hleader
  · split at hdel
    · cases hdel
    · rename_i m hm
      cases hdel
      rcases newLeader_mem hm with hnone | ⟨hmem, hne⟩
      · cases hnone
      · rw [← hleader.1] at hne ⊢
        exact (h.setLeaderGUID hmem hne).eraseMember
  · cases hdel
    exact h.eraseMember fun heq => hleader ⟨heq.symm, rfl⟩

theorem Sound.concatRank {info : RankInfo} (hid : info.rankId = g.ranks.length)
    (hroom : g.ranks.length < guildRanksMaxCount) :
    Sound { g with ranks := g.ranks ++ [info] } := by
  have hlen : (g.ranks ++ [info]).length = g.ranks.length + 1 := length_append
  have hmin := h.min
  refine ⟨⟨fun i info' hi => ?_, fun m hm => ?_, h.leader, h.only⟩, ?_, ?_⟩
  · dsimp only at hi
    rcases lt_trichotomy i g.ranks.length with hi' | rfl | hi'
    · rw [List.getElem?_append_left hi'] at hi
      exact h.ids i info' hi
    · rw [List.getElem?_concat_length] at hi
      cases hi
      exact hid
    · rw [List.getElem?_eq_none (by omega)] at hi
      cases hi
  · have hm' := h.member m hm
    dsimp only
    omega
  · dsimp only
    omega
  · dsimp only
    omega

theorem Sound.createRank (rights : ℕ) : (g.createRank rights).Sound := by
  unfold Guild.createRank
  split_ifs with hfull
  · exact h
  · rw [h.getRanksSize] at hfull
    exact h.concatRank h.getRanksSize (not_le.1 hfull)

theorem Sound.removeLast {rankId : ℕ} (hmin : guildRanksMinCount < g.ranks.length)
    (hlast : rankId + 1 = g.ranks.length) (hempty : ∀ m ∈ g.members, m.rankId ≠ rankId) :
    Sound { g with ranks := g.ranks.eraseIdx rankId } := by
  have hlen : (g.ranks.eraseIdx rankId).length = rankId := by
    rw [length_eraseIdx_of_lt (by omega)]
    omega
  have hmax := h.max
  refine ⟨⟨fun i info hi => ?_, fun m hm => ?_, h.leader, h.only⟩, ?_, ?_⟩
  · dsimp only at hi
    have hi' : i < rankId := by
      by_contra hge
      rw [List.getElem?_eq_none (by omega)] at hi
      cases hi
    rw [List.getElem?_eraseIdx_of_lt hi'] at hi
    exact h.ids i info hi
  · have hm' := h.member m hm
    have hne := hempty m hm
    dsimp only
    omega
  · dsimp only
    omega
  · dsimp only
    omega

theorem Sound.concat (hpos : m.rankId ≠ 0) (hlt : m.rankId < g.ranks.length)
    (hnodup : ((g.members ++ [m]).map Member.guid).Nodup) :
    Sound { g with members := g.members ++ [m], members_nodup := hnodup } := by
  refine ⟨⟨h.ids, fun m' hm' => ?_, ?_, fun m' hm' hrank => ?_⟩, h.min, h.max⟩
  · rcases mem_append.1 hm' with hm' | hm'
    · exact h.member m' hm'
    · obtain rfl := mem_singleton.1 hm'
      exact hlt
  · obtain ⟨leader, hleader, hrest⟩ := h.leader
    exact ⟨leader, mem_append_left _ hleader, hrest⟩
  · rcases mem_append.1 hm' with hm' | hm'
    · exact h.only m' hm' hrank
    · obtain rfl := mem_singleton.1 hm'
      exact absurd hrank hpos

theorem Sound.addMember (c : Candidate) {rankId : ℕ}
    (hrank : rankId = guildRankNone ∨ grGuildmaster < rankId ∧ rankId < g.ranks.length) :
    (g.addMember c rankId).Sound := by
  have hlowest := h.getLowestRankId
  have hmin : 2 ≤ g.ranks.length := h.min
  have hmax : g.ranks.length ≤ 10 := h.max
  unfold Guild.addMember
  split_ifs with _ _ hnone
  · exact h
  · exact h
  · refine h.concat ?_ ?_ _
    all_goals
      unfold Candidate.toMember toU8
      dsimp only
      omega
  · have hrank' := hrank.resolve_left hnone
    refine h.concat ?_ ?_ _
    all_goals
      unfold Candidate.toMember toU8
      dsimp only
      omega

theorem Sound.rehash (i : ℕ) : (g.rehash i).Sound := by
  have hmem : ∀ m, m ∈ (g.rehash i).members ↔ m ∈ g.members := fun m =>
    (perm_toFront g.members i).mem_iff
  refine ⟨⟨h.ids, fun m hm => h.member m ((hmem m).1 hm), ?_, fun m hm => h.only m
    ((hmem m).1 hm)⟩, h.min, h.max⟩
  obtain ⟨m, hm, hleader⟩ := h.leader
  exact ⟨m, (hmem m).2 hm, hleader⟩

end

theorem sender_of_checkUpdateMemberRank {guid : ℕ} {demote : Bool} {r : Member × ℕ}
    (h : g.checkUpdateMemberRank player guid demote = .ok r) :
    ∃ me ∈ g.members, me.guid = player := by
  cases hme : g.getMember player with
  | none => simp [checkUpdateMemberRank, hasRankRight, hme] at h
  | some me =>
    obtain ⟨hmem, hguid⟩ := mem_of_getMember hme
    exact ⟨me, hmem, hguid.trans (Nat.mod_eq_of_lt player.isLt)⟩

section

variable (h : g.Sound)
include h

/-- A promotion or demotion is of a member below rank 0, to a lower rank of the table. -/
theorem Sound.assigned {me : Member} (hme : me ∈ g.members) {guid : ℕ} {demote : Bool}
    (hpass : g.Passes me m (.updateMemberRank guid demote)) :
    m ∈ g.members ∧ m.rankId ≠ 0 ∧
      toU8 (if demote then m.rankId + 1 else toU32 ((m.rankId : ℤ) - 1) : ℕ) ≠ 0 ∧
      toU8 (if demote then m.rankId + 1 else toU32 ((m.rankId : ℤ) - 1) : ℕ) <
        g.ranks.length := by
  have hmax : g.ranks.length ≤ 10 := h.max
  have hme' := h.member me hme
  have hlowest := h.getLowestRankId
  cases demote
  · obtain ⟨-, hget, -, hlower⟩ := hpass
    have hm := (mem_of_getMember hget).1
    have hm' := h.member m hm
    refine ⟨hm, by omega, ?_⟩
    rw [if_neg Bool.false_ne_true, toU32_of_range (by omega) (by omega)]
    unfold toU8 at hlower ⊢
    omega
  · obtain ⟨-, hget, -, hlower, hlast⟩ := hpass
    have hm := (mem_of_getMember hget).1
    refine ⟨hm, by omega, ?_⟩
    rw [if_pos rfl]
    unfold toU8
    omega

theorem Sound.updateMemberRank (player : PlayerGuid) (guid : ℕ) (demote : Bool) :
    (g.handleUpdateMemberRank player guid demote).Sound := by
  unfold Guild.handleUpdateMemberRank
  split
  · rename_i m n hcheck
    obtain ⟨me, hme, hguid⟩ := sender_of_checkUpdateMemberRank hcheck
    rw [← hguid, checkUpdateMemberRank_ok hme] at hcheck
    obtain ⟨hpass, hn⟩ := hcheck
    obtain ⟨hm, hrank, hnew⟩ := h.assigned hme hpass
    refine h.changeRank (fun heq => hrank ?_) ?_ ?_
    · obtain ⟨leader, hleader, hguid', hzero⟩ := h.leader
      rw [eq_of_guid hm hleader (heq.trans hguid'.symm), hzero]
      rfl
    · rw [hn]
      exact hnew.1
    · rw [hn]
      exact hnew.2
  · exact h

theorem Sound.removeRank {rankId : ℕ} (hallowed : g.Allowed (.removeRank player rankId)) :
    (g.handleRemoveRank player rankId).Sound := by
  unfold Guild.handleRemoveRank
  rw [h.getRanksSize]
  split_ifs with hrefused
  · exact h
  simp only [not_or, not_le, ge_iff_le, Bool.not_eq_false] at hrefused
  obtain ⟨hmin, hlt, hleader⟩ := hrefused
  obtain ⟨hlast, hempty⟩ := hallowed hmin hlt hleader
  exact h.removeLast hmin hlast hempty

theorem Sound.setNewGuildMaster {name : String}
    (hallowed : g.Allowed (.setNewGuildMaster player name)) :
    (g.handleSetNewGuildMaster player name).Sound := by
  unfold Guild.handleSetNewGuildMaster
  split
  · exact h
  rename_i hleader
  have hleader' : g.isLeader player = true := by simpa using hleader
  split
  · exact h
  rename_i old hold
  split
  · exact h
  rename_i m hm
  obtain ⟨hne, hlen⟩ := hallowed hleader' m hm
  have hplayer := (h.toRankTable.isLeader_iff player).1 hleader'
  have hguid : old.guid = g.leaderGuid := by
    rw [(mem_of_getMember hold).2, guidLopart, Nat.mod_eq_of_lt player.isLt, hplayer]
  rw [hguid]
  exact (h.setLeaderGUID (mem_of_find?_eq_some hm) (hplayer ▸ hne)).changeRank (by decide) hlen

theorem Sound.leaveMember {undeletableLevel : ℕ} {g' : Guild}
    (hleave : g.handleLeaveMember undeletableLevel player = some g') : g'.Sound := by
  unfold Guild.handleLeaveMember at hleave
  split_ifs at hleave
  · cases hleave
    exact h
  · cases hleave
    exact h
  · exact h.deleteMember player hleave

theorem Sound.addNewRank (player : PlayerGuid) : (g.handleAddNewRank player).Sound := by
  unfold Guild.handleAddNewRank
  split_ifs
  · exact h
  · exact h.createRank _
  · exact h

/-- One allowed call keeps the table. -/
theorem Sound.callTable {undeletableLevel : ℕ} {call : TableCall} {g' : Guild}
    (hallowed : g.Allowed call) (hcall : g.callTable undeletableLevel call = some g') :
    g'.Sound := by
  cases call with
  | addNewRank player =>
    cases hcall
    exact h.addNewRank player
  | removeRank player rankId =>
    cases hcall
    exact h.removeRank hallowed
  | addMember c rankId =>
    cases hcall
    exact h.addMember c hallowed
  | deleteMember guid => exact h.deleteMember guid hcall
  | leaveMember player => exact h.leaveMember hcall
  | updateMemberRank player guid demote =>
    cases hcall
    exact h.updateMemberRank player guid demote
  | setNewGuildMaster player name =>
    cases hcall
    exact h.setNewGuildMaster hallowed
  | rehash i =>
    cases hcall
    exact h.rehash i

end

end Steps

/-! ## Runs -/

/-- The default table, in order. -/
def defaultRanks : List RankInfo :=
  [⟨0, grRightAll, 0, fun _ => ⟨0, 0⟩⟩, ⟨1, grRightAll, 0, fun _ => ⟨0, 0⟩⟩,
    ⟨2, grRightChat, 0, fun _ => ⟨0, 0⟩⟩, ⟨3, grRightChat, 0, fun _ => ⟨0, 0⟩⟩,
    ⟨4, grRightChat, 0, fun _ => ⟨0, 0⟩⟩]

theorem addMember_cases (g : Guild) (c : Candidate) (rankId : ℕ) :
    (g.addMember c rankId).members = g.members ∨
      (g.addMember c rankId).members = g.members ++ [c.toMember
        (if rankId = guildRankNone then g.getLowestRankId else rankId)] := by
  unfold addMember
  by_cases hmem : c.guid ∈ g.members.map Member.guid
  · rw [dif_pos hmem]
    exact .inl rfl
  · rw [dif_neg hmem]
    by_cases hbad : (c.inOtherGuild || !c.valid) = true
    · rw [if_pos hbad]
      exact .inl rfl
    · rw [if_neg hbad]
      exact .inr rfl

theorem addMember_frame (g : Guild) (c : Candidate) (rankId : ℕ) :
    (g.addMember c rankId).leaderGuid = g.leaderGuid ∧
      (g.addMember c rankId).ranks = g.ranks := by
  unfold addMember
  split_ifs <;> exact ⟨rfl, rfl⟩

theorem create_eq {leader : Candidate} {g : Guild} (h : create leader = some g) :
    g.leaderGuid = leader.guid ∧ g.ranks = defaultRanks ∧
      g.members = [leader.toMember grGuildmaster] := by
  obtain ⟨hleader, hranks⟩ := addMember_frame (founded leader) leader grGuildmaster
  unfold create at h
  split_ifs at h with hempty
  cases h
  refine ⟨hleader, hranks, ?_⟩
  rcases addMember_cases (founded leader) leader grGuildmaster with hnone | hadded
  · rw [hnone] at hempty
    exact absurd rfl hempty
  · exact hadded

theorem sound_create {leader : Candidate} {g : Guild} (h : create leader = some g) : g.Sound := by
  obtain ⟨hleader, hranks, hmembers⟩ := create_eq h
  have hlen : g.ranks.length = 5 := hranks ▸ rfl
  have hmem : ∀ m ∈ g.members, m = leader.toMember grGuildmaster := fun m hm =>
    mem_singleton.1 (hmembers ▸ hm)
  refine ⟨⟨fun i info hi => ?_, fun m hm => ?_, ⟨leader.toMember grGuildmaster,
    hmembers ▸ mem_singleton_self _, hleader.symm, rfl⟩, fun m hm _ => ?_⟩, ?_, ?_⟩
  · rw [hranks] at hi
    match i, hi with
    | 0, rfl | 1, rfl | 2, rfl | 3, rfl | 4, rfl => rfl
  · rw [hmem m hm, hlen]
    exact Nat.zero_lt_succ 4
  · rw [hmem m hm, hleader]
    rfl
  · rw [hlen]
    decide
  · rw [hlen]
    decide

/-- The call is allowed in the state of the guild. -/
def AllowedAt (s : Option Guild) (call : TableCall) : Prop :=
  ∀ g, s = some g → g.Allowed call

/-- The rank table. From the creation of a guild, every run of allowed calls keeps the
numberings of ranks in agreement for as long as the guild exists. -/
theorem rankTable_run (undeletableLevel : ℕ) (leader : Candidate) (calls : List TableCall)
    (hcalls : Along (tableStep undeletableLevel) AllowedAt (create leader) calls) :
    ∀ g, run (tableStep undeletableLevel) (create leader) calls = some g → g.RankTable := by
  have hstep : ∀ (s : Option Guild) call, (∀ g, s = some g → g.Sound) → AllowedAt s call →
      ∀ g, tableStep undeletableLevel s call = some g → g.Sound := by
    intro s call hs hallowed g' hg'
    obtain ⟨g, hg, hcall⟩ := Option.bind_eq_some_iff.1 hg'
    exact (hs g hg).callTable (hallowed g hg) hcall
  intro g hg
  exact (invariant_run hstep (fun _ => sound_create) hcalls g hg).toRankTable

/-- A guild gets a second member, who is promoted and becomes its master ; the old master
adds a rank and removes it again before. -/
def secondMemberRun : List TableCall :=
  [.addMember ⟨2, "Bran", false, true, two_lt_guids⟩ guildRankNone, .updateMemberRank 1 2 false,
    .addNewRank 1, .removeRank 1 5, .setNewGuildMaster 1 "Bran", .leaveMember 1]

theorem rankTable_run_secondMember :
    ∃ g, run (tableStep 25) (create ⟨1, "Alys", false, true, by decide⟩) secondMemberRun = some g ∧
      g.RankTable := by
  have hsome : (run (tableStep 25) (create ⟨1, "Alys", false, true, by decide⟩)
      secondMemberRun).isSome := by decide +kernel
  obtain ⟨g, hg⟩ := Option.isSome_iff_exists.1 hsome
  refine ⟨g, hg, rankTable_run 25 _ secondMemberRun ⟨?_, ?_, ?_, ?_, ?_, ?_, trivial⟩ g hg⟩
  all_goals
    intro g hg
    cases hg
  · exact .inl rfl
  · trivial
  · trivial
  · exact fun _ _ _ => ⟨rfl, by decide +kernel⟩
  · refine fun _ m hm => ⟨fun hguid => ?_, by decide +kernel⟩
    have hfound := congrArg (Option.map Member.guid) hm
    rw [Option.map_some, hguid] at hfound
    exact absurd hfound (by decide +kernel)
  · trivial

/-- The guild master names himself as the new guild master and falls to rank 4. -/
theorem setNewGuildMaster_himself :
    ∃ g, run (tableStep 25) (create ⟨1, "Alys", false, true, by decide⟩)
      [.setNewGuildMaster 1 "Alys"] = some g ∧ ¬ g.RankTable := by
  refine ⟨_, rfl, fun h => ?_⟩
  obtain ⟨m, hm, -, hrank⟩ := h.leader
  obtain rfl := mem_singleton.1 hm
  exact absurd hrank (by decide)

end Guild

end MistyWorld
