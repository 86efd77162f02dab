import MistyWorld.Guild
import MistyWorld.Run

/-!
# Who may change whose rank

The requests that change the rank of a member or remove him are `HandleUpdateMemberRank`,
`HandleSetMemberRank` and `HandleRemoveMember`. `Authority` is what a request of a member
below the guild master should respect : it touches only members below him, and gives only
ranks below his own that the table has. `authority_iff` says exactly which requests do, and
`rank_authority` adds what follows for a run : the guild master stays, and nobody joins him
at rank 0.
-/

open List Word Machine

namespace MistyWorld

namespace Guild

variable {g : Guild} {player : ℕ}

/-! ## Lookups and changes -/

theorem mem_of_getMember {guid : ℕ} {m : Member} (h : g.getMember guid = some m) :
    m ∈ g.members ∧ m.guid = guidLopart guid :=
  Keyed.mem_of_find h

theorem getMember_of_mem {m : Member} (h : m ∈ g.members) : g.getMember m.guid = some m := by
  rw [getMember, guidLopart, Nat.mod_eq_of_lt m.guid_lt]
  exact Keyed.find_of_mem g.members_nodup h

theorem eq_of_guid {m m' : Member} (h : m ∈ g.members) (h' : m' ∈ g.members)
    (heq : m.guid = m'.guid) : m = m' :=
  inj_on_of_nodup_map g.members_nodup h h' heq

theorem mem_changeRank {guid n : ℕ} {m' : Member} : m' ∈ (g.changeRank guid n).members ↔
    ∃ m ∈ g.members, (if m.guid = guid then m.changeRank n else m) = m' :=
  mem_map

theorem mem_changeRank_of_ne {guid n : ℕ} {m : Member} (h : m ∈ g.members)
    (hne : m.guid ≠ guid) : m ∈ (g.changeRank guid n).members :=
  mem_changeRank.2 ⟨m, h, if_neg hne⟩

theorem rankId_of_mem_changeRank {guid n : ℕ} {m : Member}
    (h : m ∈ (g.changeRank guid n).members) (hguid : m.guid = guid) : m.rankId = toU8 n := by
  obtain ⟨m', -, rfl⟩ := mem_changeRank.1 h
  split_ifs at hguid ⊢ with hk
  · rfl
  · exact absurd hguid hk

theorem mem_of_mem_changeRank_of_ne {guid n : ℕ} {m : Member}
    (h : m ∈ (g.changeRank guid n).members) (hguid : m.guid ≠ guid) : m ∈ g.members := by
  obtain ⟨m', hm', rfl⟩ := mem_changeRank.1 h
  split_ifs at hguid ⊢ with hk
  · exact absurd hk hguid
  · exact hm'

theorem mem_eraseMember {lowguid : ℕ} {m : Member} :
    m ∈ (g.eraseMember lowguid).members ↔ m ∈ g.members ∧ m.guid ≠ lowguid :=
  Keyed.mem_remove

/-! ## Requests -/

/-- The requests that change a rank or remove a member. -/
inductive RankRequest
  | updateMemberRank (guid : ℕ) (demote : Bool)
  | setMemberRank (guid rank : ℕ)
  | removeMember (guid : ℕ)
  deriving DecidableEq

/-- Serve a request of a player. -/
def serveRank (g : Guild) (player : ℕ) : RankRequest → Option Guild
  | .updateMemberRank guid demote => some (g.handleUpdateMemberRank player guid demote)
  | .setMemberRank guid rank => some (g.handleSetMemberRank player guid rank)
  | .removeMember guid => g.handleRemoveMember player guid

/-- The member a request gives a rank, and the rank as it is stored. -/
def assigned (g : Guild) (player : ℕ) : RankRequest → Option (Member × ℕ)
  | .updateMemberRank guid demote =>
    match g.checkUpdateMemberRank player guid demote with
    | .ok (m, n) => some (m, toU8 n)
    | .error _ => none
  | .setMemberRank guid rank =>
    match g.checkSetMemberRank player guid rank with
    | .ok m => some (m, toU8 rank)
    | .error _ => none
  | .removeMember _ => none

/-- The members after a request. -/
def membersAfter (g : Guild) (player : ℕ) (req : RankRequest) : List Member :=
  match g.serveRank player req with
  | some g' => g'.members
  | none => []

/-- What a request of `me` should respect : only members of a lower rank (a greater rank id)
are changed or removed, and every assigned rank is lower than his own and is in the table. -/
structure Authority (g : Guild) (me : Member) (req : RankRequest) : Prop where
  changed : ∀ m ∈ g.members, m ∉ g.membersAfter me.guid req → me.rankId < m.rankId
  assigned : ∀ m n, g.assigned me.guid req = some (m, n) → me.rankId < n ∧ n < g.ranks.length

/-- The checks that a request which gives `m` a rank passes. -/
def Passes (g : Guild) (me m : Member) : RankRequest → Prop
  | .updateMemberRank guid true =>
    g.hasRankRight me.guid grRightDemote ∧ g.getMember guid = some m ∧ m.guid ≠ me.guid ∧
      me.rankId < m.rankId ∧ m.rankId < g.getLowestRankId
  | .updateMemberRank guid false =>
    g.hasRankRight me.guid grRightPromote ∧ g.getMember guid = some m ∧ m.guid ≠ me.guid ∧
      toU8 (me.rankId + 1 : ℕ) < m.rankId
  | .setMemberRank guid rank =>
    g.hasRankRight me.guid (if rank > m.rankId then grRightDemote else grRightPromote) ∧
      g.getMember guid = some m ∧ m.guid ≠ me.guid
  | .removeMember _ => False

/-- The requests with authority. `HandleSetMemberRank` compares no ranks, so the request has
to. A promotion to the place above goes wrong where the sum `rankId + 1` wraps around, or
where the member was below the whole table ; a demotion where the table is empty. -/
def Permitted (g : Guild) (me : Member) (req : RankRequest) : Prop :=
  ∀ m, g.Passes me m req →
    match req with
    | .updateMemberRank _ true => 0 < g.ranks.length
    | .updateMemberRank _ false => me.rankId < 255 ∧ m.rankId ≤ g.ranks.length
    | .setMemberRank _ rank =>
      me.rankId < m.rankId ∧ me.rankId < toU8 rank ∧ toU8 rank < g.ranks.length
    | .removeMember _ => True

/-! ## What a handler decides -/

section Checks

variable {me m : Member} {guid n : ℕ}

theorem checkUpdateMemberRank_ok {demote : Bool} (hme : me ∈ g.members) :
    g.checkUpdateMemberRank me.guid guid demote = .ok (m, n) ↔
      g.Passes me m (.updateMemberRank guid demote) ∧
        n = if demote then m.rankId + 1 else toU32 ((m.rankId : ℤ) - 1) := by
  constructor
  · intro h
    unfold checkUpdateMemberRank at h
    rw [getMember_of_mem hme] at h
    cases demote <;> simp only [Bool.false_eq_true, if_false, if_true] at h ⊢
    · split at h
      · cases h
      rename_i hright
      split at h
      · cases h
      rename_i member hmember
      split at h
      · cases h
      rename_i hne
      split at h
      · cases h
      rename_i hlower
      cases h
      simp only [Member.isRankNotLower, decide_eq_true_eq, not_le] at hlower
      exact ⟨⟨by simpa using hright, hmember, hne, hlower⟩, rfl⟩
    · split at h
      · cases h
      rename_i hright
      split at h
      · cases h
      rename_i member hmember
      split at h
      · cases h
      rename_i hne
      split at h
      · cases h
      rename_i hlower
      split at h
      · cases h
      rename_i hlowest
      cases h
      simp only [Member.isRankNotLower, decide_eq_true_eq, not_le] at hlower
      exact ⟨⟨by simpa using hright, hmember, hne, hlower, not_le.1 hlowest⟩, rfl⟩
  · rintro ⟨hpass, rfl⟩
    cases demote
    · obtain ⟨hright, hmember, hne, hlower⟩ := hpass
      have hlower' : m.isRankNotLower (toU8 (me.rankId + 1 : ℕ)) = false := by
        simpa only [Member.isRankNotLower, decide_eq_false_iff_not, not_le] using hlower
      simp only [checkUpdateMemberRank, hright, hmember, hne, getMember_of_mem hme, hlower',
        Bool.not_true, Bool.false_eq_true, if_false]
    · obtain ⟨hright, hmember, hne, hlower, hlowest⟩ := hpass
      have hlower' : m.isRankNotLower me.rankId = false := by
        simpa only [Member.isRankNotLower, decide_eq_false_iff_not, not_le] using hlower
      simp only [checkUpdateMemberRank, hright, hmember, hne, getMember_of_mem hme, hlower',
        Bool.not_true, Bool.false_eq_true, if_false, if_true, ge_iff_le, not_le.2 hlowest]

theorem checkSetMemberRank_ok {rank : ℕ} : g.checkSetMemberRank me.guid guid rank = .ok m ↔
    g.Passes me m (.setMemberRank guid rank) := by
  constructor
  · intro h
    unfold checkSetMemberRank at h
    split at h
    · cases h
    rename_i member hmember
    generalize hright : g.hasRankRight me.guid
      (if rank > member.rankId then grRightDemote else grRightPromote) = right at h
    cases right
    · cases h
    simp only [Bool.not_true, Bool.false_eq_true, if_false] at h
    split at h
    · cases h
    rename_i hne
    cases h
    exact ⟨hright, hmember, hne⟩
  · rintro ⟨hright, hmember, hne⟩
    simp only [checkSetMemberRank, hright, hmember, hne, Bool.not_true, Bool.false_eq_true,
      if_false]

theorem checkRemoveMember_ok (hme : me ∈ g.members) (h : g.checkRemoveMember me.guid guid = .ok m) :
    g.getMember guid = some m ∧ m.rankId ≠ 0 ∧ me.rankId < m.rankId := by
  unfold checkRemoveMember at h
  split at h
  · cases h
  split at h
  · cases h
  rename_i member hmember
  split at h
  · cases h
  rename_i hmaster
  rw [getMember_of_mem hme] at h
  dsimp only at h
  split at h
  · cases h
  rename_i hlower
  cases h
  simp only [Member.isRank, decide_eq_true_eq] at hmaster
  simp only [Member.isRankNotLower, decide_eq_true_eq, not_le] at hlower
  exact ⟨hmember, hmaster, hlower⟩

end Checks

/-! ## One request -/

section Request

variable {me m : Member} {req : RankRequest}

/-- What serving a request does : nothing, one assignment, or one deletion. -/
theorem serveRank_cases (hme : me ∈ g.members) (req : RankRequest) :
    (g.assigned me.guid req = none ∧ g.serveRank me.guid req = some g) ∨
      (∃ m, ∃ n : ℕ, m ∈ g.members ∧ g.Passes me m req ∧
        g.assigned me.guid req = some (m, toU8 n) ∧
        g.serveRank me.guid req = some (g.changeRank m.guid n)) ∨
      ∃ m guid, g.getMember guid = some m ∧ m.rankId ≠ 0 ∧ me.rankId < m.rankId ∧
        g.assigned me.guid req = none ∧ g.serveRank me.guid req = g.deleteMember guid false := by
  cases req with
  | updateMemberRank guid demote =>
    simp only [assigned, serveRank, handleUpdateMemberRank]
    cases hcheck : g.checkUpdateMemberRank me.guid guid demote with
    | error e => exact .inl ⟨rfl, rfl⟩
    | ok r =>
      obtain ⟨hpass, -⟩ := (checkUpdateMemberRank_ok hme).1 hcheck
      refine .inr (.inl ⟨r.1, r.2, ?_, hpass, rfl, rfl⟩)
      cases demote
      · exact (mem_of_getMember hpass.2.1).1
      · exact (mem_of_getMember hpass.2.1).1
  | setMemberRank guid rank =>
    simp only [assigned, serveRank, handleSetMemberRank]
    cases hcheck : g.checkSetMemberRank me.guid guid rank with
    | error e => exact .inl ⟨rfl, rfl⟩
    | ok m =>
      have hpass := checkSetMemberRank_ok.1 hcheck
      exact .inr (.inl ⟨m, rank, (mem_of_getMember hpass.2.1).1, hpass, rfl, rfl⟩)
  | removeMember guid =>
    simp only [assigned, serveRank, handleRemoveMember]
    cases hcheck : g.checkRemoveMember me.guid guid with
    | error e => exact .inl ⟨trivial, rfl⟩
    | ok m =>
      obtain ⟨hm, hmaster, hlower⟩ := checkRemoveMember_ok hme hcheck
      exact .inr (.inr ⟨m, guid, hm, hmaster, hlower, trivial, rfl⟩)

/-- The leader is a member of rank 0. -/
def LeaderIsMaster (g : Guild) : Prop :=
  ∃ m ∈ g.members, m.guid = g.leaderGuid ∧ m.rankId = grGuildmaster

/-- Deleting a member other than the guild master only erases him. -/
theorem deleteMember_of_lower {guid : ℕ} (hl : g.LeaderIsMaster) (hm : g.getMember guid = some m)
    (hmaster : m.rankId ≠ 0) : g.deleteMember guid false = some (g.eraseMember m.guid) := by
  obtain ⟨leader, hleader, hguid, hrank⟩ := hl
  obtain ⟨hmem, hlow⟩ := mem_of_getMember hm
  have hne : g.leaderGuid ≠ guid := by
    rintro rfl
    rw [← hguid, guidLopart, Nat.mod_eq_of_lt leader.guid_lt] at hlow
    rw [eq_of_guid hmem hleader hlow] at hmaster
    exact hmaster hrank
  rw [deleteMember, if_neg (fun h => hne h.1), hlow]

theorem assigned_updateMemberRank {player guid n : ℕ} {demote : Bool} :
    g.assigned player (.updateMemberRank guid demote) = some (m, n) ↔
      ∃ k : ℕ, g.checkUpdateMemberRank player guid demote = .ok (m, k) ∧ toU8 k = n := by
  simp only [assigned]
  cases hcheck : g.checkUpdateMemberRank player guid demote with
  | error e => simp
  | ok r => simp [Prod.ext_iff, and_assoc]

theorem assigned_setMemberRank {player guid rank n : ℕ} :
    g.assigned player (.setMemberRank guid rank) = some (m, n) ↔
      g.checkSetMemberRank player guid rank = .ok m ∧ toU8 rank = n := by
  simp only [assigned]
  cases hcheck : g.checkSetMemberRank player guid rank with
  | error e => simp
  | ok r => simp

/-- The stored rank of an assignment is the rank meant. -/
theorem assigned_iff (hme : me ∈ g.members) {n : ℕ} : g.assigned me.guid req = some (m, n) ↔
    g.Passes me m req ∧
      match req with
      | .updateMemberRank _ true => n = m.rankId + 1
      | .updateMemberRank _ false => n + 1 = m.rankId
      | .setMemberRank _ rank => n = toU8 rank
      | .removeMember _ => False := by
  have hm := m.rankId_lt
  cases req with
  | updateMemberRank guid demote =>
    simp only [assigned_updateMemberRank, checkUpdateMemberRank_ok hme]
    cases demote
    · simp only [Bool.false_eq_true, if_false, and_assoc, exists_and_left, exists_eq_left]
      refine and_congr_right fun hpass => ?_
      obtain ⟨-, -, -, hlower⟩ := hpass
      have hpos : 0 < m.rankId := by omega
      rw [toU32_of_range (by omega) (by omega)]
      unfold toU8
      omega
    · simp only [if_true, and_assoc, exists_and_left, exists_eq_left]
      refine and_congr_right fun hpass => ?_
      obtain ⟨-, -, -, -, hlowest⟩ := hpass
      have hlt : g.getLowestRankId < 2 ^ 8 := toU8_lt _
      unfold toU8
      omega
  | setMemberRank guid rank =>
    rw [assigned_setMemberRank, checkSetMemberRank_ok]
    exact and_congr_right fun _ => eq_comm
  | removeMember guid => simp [assigned, Passes]

/-- A request takes only its target out of the members as they are. -/
theorem mem_membersAfter (hl : g.LeaderIsMaster) (hme : me ∈ g.members) (hm : m ∈ g.members)
    (hgone : m ∉ g.membersAfter me.guid req) : g.Passes me m req ∨ me.rankId < m.rankId := by
  unfold membersAfter at hgone
  rcases serveRank_cases hme req with ⟨-, hserve⟩ | ⟨m', n, hm', hpass, -, hserve⟩ |
    ⟨m', guid, hget, hmaster, hlower, -, hserve⟩
  · rw [hserve] at hgone
    exact absurd hm hgone
  · rw [hserve] at hgone
    have hguid : m.guid = m'.guid := by
      by_contra hne
      exact hgone (mem_changeRank_of_ne hm hne)
    rw [eq_of_guid hm hm' hguid]
    exact .inl hpass
  · rw [hserve, deleteMember_of_lower hl hget hmaster] at hgone
    have hguid : m.guid = m'.guid := by
      by_contra hne
      exact hgone (mem_eraseMember.2 ⟨hm, hne⟩)
    rw [eq_of_guid hm (mem_of_getMember hget).1 hguid]
    exact .inr hlower

theorem Permitted.lower (hper : g.Permitted me req) (hpass : g.Passes me m req) :
    me.rankId < m.rankId := by
  have h := hper m hpass
  cases req with
  | updateMemberRank guid demote =>
    cases demote
    · obtain ⟨-, -, -, hlower⟩ := hpass
      unfold toU8 at hlower
      omega
    · exact hpass.2.2.2.1
  | setMemberRank guid rank => exact h.1
  | removeMember guid => exact hpass.elim

/-- A request has authority exactly when it is permitted. -/
theorem authority_iff (hl : g.LeaderIsMaster) (hme : me ∈ g.members) (req : RankRequest) :
    g.Authority me req ↔ g.Permitted me req := by
  constructor
  · intro hauth m hpass
    have hrank := fun n => hauth.assigned m n
    simp only [assigned_iff hme] at hrank
    have hlt := m.rankId_lt
    cases req with
    | updateMemberRank guid demote =>
      cases demote
      · have hpos : 0 < m.rankId := by
          have := hpass.2.2.2
          omega
        have h := hrank (m.rankId - 1) ⟨hpass, by omega⟩
        exact ⟨by omega, by omega⟩
      · have h := hrank _ ⟨hpass, rfl⟩
        exact lt_of_le_of_lt (Nat.zero_le _) h.2
    | setMemberRank guid rank =>
      have h := hrank _ ⟨hpass, rfl⟩
      refine ⟨?_, h⟩
      by_cases hsame : toU8 rank = m.rankId
      · rw [← hsame]
        exact h.1
      -- the record of `m` is replaced by one with another rank
      refine hauth.changed m (mem_of_getMember hpass.2.1).1 fun hmem => hsame ?_
      simp only [membersAfter, serveRank, handleSetMemberRank,
        checkSetMemberRank_ok.2 hpass] at hmem
      exact (rankId_of_mem_changeRank hmem rfl).symm
    | removeMember guid => trivial
  · intro hper
    refine ⟨fun m hm hgone => ?_, fun m n hassigned => ?_⟩
    · rcases mem_membersAfter hl hme hm hgone with hpass | hlower
      · exact hper.lower hpass
      · exact hlower
    · obtain ⟨hpass, hn⟩ := (assigned_iff hme).1 hassigned
      have hlower := hper.lower hpass
      have h := hper m hpass
      cases req with
      | updateMemberRank guid demote =>
        cases demote
        · dsimp only at hn h
          have hlower' := hpass.2.2.2
          unfold toU8 at hlower'
          omega
        · dsimp only at hn h
          have hlowest : m.rankId < (g.ranks.length : ℤ) - 1 := by
            have := hpass.2.2.2.2
            unfold getLowestRankId toU8 at this
            omega
          omega
      | setMemberRank guid rank =>
        rw [hn]
        exact h.2
      | removeMember guid => exact hpass.elim

end Request

/-! ## Runs -/

/-- A member of rank 0. -/
def IsMaster (g : Guild) (guid : ℕ) : Prop :=
  ∃ m ∈ g.members, m.guid = guid ∧ m.rankId = grGuildmaster

/-- Serve a request, unless the guild is disbanded. -/
def rankStep (s : Option Guild) (r : ℕ × RankRequest) : Option Guild :=
  s.bind fun g => g.serveRank r.1 r.2

/-- The request comes from a member who is not a guild master, and is permitted. -/
def ByNonMaster (s : Option Guild) (r : ℕ × RankRequest) : Prop :=
  ∀ g, s = some g →
    ∃ me ∈ g.members, me.guid = r.1 ∧ me.rankId ≠ grGuildmaster ∧ g.Permitted me r.2

theorem isMaster_changeRank {m : Member} {n : ℕ} (hm : m ∈ g.members) (hrank : m.rankId ≠ 0)
    (hn : toU8 n ≠ 0) (guid : ℕ) : (g.changeRank m.guid n).IsMaster guid ↔ g.IsMaster guid := by
  constructor
  · rintro ⟨m', hm', rfl, hzero⟩
    have hne : m'.guid ≠ m.guid := fun h => hn (rankId_of_mem_changeRank hm' h ▸ hzero)
    exact ⟨m', mem_of_mem_changeRank_of_ne hm' hne, rfl, hzero⟩
  · rintro ⟨m', hm', rfl, hzero⟩
    have hne : m'.guid ≠ m.guid := fun h => hrank (eq_of_guid hm' hm h ▸ hzero)
    exact ⟨m', mem_changeRank_of_ne hm' hne, rfl, hzero⟩

theorem isMaster_eraseMember {m : Member} (hm : m ∈ g.members) (hrank : m.rankId ≠ 0)
    (guid : ℕ) : (g.eraseMember m.guid).IsMaster guid ↔ g.IsMaster guid := by
  constructor
  · rintro ⟨m', hm', hguid⟩
    exact ⟨m', (mem_eraseMember.1 hm').1, hguid⟩
  · rintro ⟨m', hm', rfl, hzero⟩
    have hne : m'.guid ≠ m.guid := fun h => hrank (eq_of_guid hm' hm h ▸ hzero)
    exact ⟨m', mem_eraseMember.2 ⟨hm', hne⟩, rfl, hzero⟩

/-- One permitted request keeps the leader and the masters. -/
theorem serveRank_masters {me : Member} {req : RankRequest} (hl : g.LeaderIsMaster)
    (hme : me ∈ g.members) (hper : g.Permitted me req) :
    ∃ g', g.serveRank me.guid req = some g' ∧ g'.leaderGuid = g.leaderGuid ∧
      ∀ guid, g'.IsMaster guid ↔ g.IsMaster guid := by
  rcases serveRank_cases hme req with ⟨-, hserve⟩ | ⟨m, n, hm, hpass, hassigned, hserve⟩ |
    ⟨m, guid, hget, hmaster, hlower, -, hserve⟩
  · exact ⟨g, hserve, rfl, fun _ => Iff.rfl⟩
  · have hlower := hper.lower hpass
    have hn := (((authority_iff hl hme req).2 hper).assigned m _ hassigned).1
    exact ⟨_, hserve, rfl, isMaster_changeRank hm (by omega) (by omega)⟩
  · rw [hserve, deleteMember_of_lower hl hget hmaster]
    exact ⟨_, rfl, rfl, isMaster_eraseMember (mem_of_getMember hget).1 hmaster⟩

/-- Rank authority. With a leader of rank 0, a request of a member below him touches only
members below the sender and gives only ranks below the sender's exactly when it is
permitted, and any sequence of such requests leaves the leader and the set of guild masters
as they are. -/
theorem rank_authority (g : Guild) (hl : g.LeaderIsMaster) :
    (∀ me ∈ g.members, me.rankId ≠ grGuildmaster →
      ∀ req, g.Authority me req ↔ g.Permitted me req) ∧
    ∀ reqs, Along rankStep ByNonMaster (some g) reqs →
      ∃ g', run rankStep (some g) reqs = some g' ∧ g'.leaderGuid = g.leaderGuid ∧
        ∀ guid, g'.IsMaster guid ↔ g.IsMaster guid := by
  refine ⟨fun me hme _ req => authority_iff hl hme req, fun reqs hreqs => ?_⟩
  have hstep : ∀ (s : Option Guild) r,
      (∃ g', s = some g' ∧ g'.leaderGuid = g.leaderGuid ∧
        ∀ guid, g'.IsMaster guid ↔ g.IsMaster guid) → ByNonMaster s r →
      ∃ g', rankStep s r = some g' ∧ g'.leaderGuid = g.leaderGuid ∧
        ∀ guid, g'.IsMaster guid ↔ g.IsMaster guid := by
    rintro s r ⟨g₁, rfl, hleader, hmasters⟩ hby
    obtain ⟨me, hme, hguid, -, hper⟩ := hby g₁ rfl
    have hl₁ : g₁.LeaderIsMaster := (hmasters _).2 (hleader ▸ hl)
    obtain ⟨g₂, hserve, hleader', hmasters'⟩ := serveRank_masters hl₁ hme hper
    refine ⟨g₂, ?_, hleader'.trans hleader, fun guid => (hmasters' guid).trans (hmasters guid)⟩
    rw [rankStep, Option.bind_some, ← hguid, hserve]
  exact invariant_run hstep ⟨g, rfl, rfl, fun _ => Iff.rfl⟩ hreqs

/-- A master, an officer and an initiate. -/
def smallGuild : Guild :=
  createDefaultGuildRanks ⟨1, 1, 0, 0, [],
    [⟨1, "Alys", 0, fun _ => 0, by decide, by decide⟩,
      ⟨2, "Bran", 1, fun _ => 0, by decide, by decide⟩,
      ⟨3, "Cade", 4, fun _ => 0, by decide, by decide⟩], by decide⟩

theorem rank_authority_smallGuild :
    ∃ g', run rankStep (some smallGuild) [(2, .updateMemberRank 3 false), (2, .removeMember 3)] =
          some g' ∧
      g'.leaderGuid = smallGuild.leaderGuid ∧
        ∀ guid, g'.IsMaster guid ↔ smallGuild.IsMaster guid := by
  refine (rank_authority smallGuild ⟨_, mem_cons_self, rfl, rfl⟩).2 _
    ⟨fun g hg => ?_, fun g hg => ?_, trivial⟩
  · cases hg
    refine ⟨_, mem_cons_of_mem _ mem_cons_self, rfl, by decide, fun m hpass => ?_⟩
    have hm : (smallGuild.getMember 3).map Member.rankId = some 4 := by decide
    rw [hpass.2.1, Option.map_some, Option.some.injEq] at hm
    exact ⟨by decide, hm.le.trans (by decide)⟩
  · cases hg
    exact ⟨_, mem_cons_of_mem _ mem_cons_self, rfl, by decide, fun m hpass => trivial⟩

/-- The officer makes the initiate a guild master. -/
theorem setMemberRank_to_master : smallGuild.LeaderIsMaster ∧
    ∃ me ∈ smallGuild.members, me.rankId ≠ grGuildmaster ∧
      ¬ smallGuild.Authority me (.setMemberRank 3 0) ∧ ¬ smallGuild.IsMaster 3 ∧
        (smallGuild.handleSetMemberRank me.guid 3 0).IsMaster 3 := by
  refine ⟨⟨_, mem_cons_self, rfl, rfl⟩, _, mem_cons_of_mem _ mem_cons_self,
    by decide, fun hauth => ?_, ?_, ?_⟩
  · exact absurd (hauth.assigned _ 0 rfl).1 (by decide)
  · unfold IsMaster
    decide
  · exact ⟨_, mem_cons_of_mem _ (mem_cons_of_mem _ mem_cons_self), rfl, rfl⟩

end Guild

end MistyWorld
