import MistyWorld.LootRoll
import MistyWorld.Run

/-!
# Fair rolls

The totals of a roll are the numbers of votes, a vote closes a roll only when everybody has voted,
and the winner has voted need if anybody has, else greed or disenchant, with a vote that the roll
allows. This holds in every run where no player votes twice in a roll, or for a type that the roll
does not allow (`rolls_fair`). A player who votes twice is counted twice
(`countRollVote_twice`).
-/

open Keyed List Word Machine

namespace MistyWorld

namespace Roll

variable {r : Roll}

/-- How many players have such a vote. -/
def votes (r : Roll) (p : RollVote → Bool) : ℕ :=
  r.playerVote.countP fun v => p v.2

/-- The totals are the numbers of votes. -/
structure Tallied (r : Roll) : Prop where
  need : r.totalNeed = r.votes fun vote => vote = .need
  greed : r.totalGreed = r.votes fun vote => vote = .greed || vote = .disenchant
  pass : r.totalPass = r.votes fun vote => vote = .pass
  rolling : r.totalPlayersRolling = r.votes fun vote => vote ≠ .notValid

/-- What open rolls keep : different players, at most a full raid, all of them valid, the totals, and
votes that the roll allows. -/
structure Sound (r : Roll) : Prop extends Tallied r where
  nodup : (r.playerVote.map Prod.fst).Nodup
  size : r.playerVote.length ≤ maxRaidSize
  valid : ∀ v ∈ r.playerVote, v.2 ≠ .notValid
  allowed : ∀ v ∈ r.playerVote, v.2 ≠ .notEmitedYet → v.2.flag &&& r.rollVoteMask ≠ 0

end Roll

/-- The winner has voted need if anybody has, else greed or disenchant, and the roll allows his
vote. Without a winner nobody has voted so. -/
def Closed.FairWinner (c : Closed) : Prop :=
  match c.outcome.winner with
  | some guid => ∃ vote, c.roll.voteOf guid = some vote ∧ vote.flag &&& c.roll.rollVoteMask ≠ 0 ∧
      if ∃ v ∈ c.roll.playerVote, v.2 = .need then vote = .need
      else vote = .greed ∨ vote = .disenchant
  | none => ∀ v ∈ c.roll.playerVote, v.2 = .pass ∨ v.2 = .notEmitedYet

/-- The roll was counted fairly : by a vote only if everybody has voted. -/
structure Closed.Fair (c : Closed) : Prop where
  tallied : c.roll.Tallied
  voted : c.timer = false → ∀ v ∈ c.roll.playerVote, v.2 ≠ .notEmitedYet
  winner : c.FairWinner

/-! ## Counting votes -/

namespace Roll

variable {r : Roll} {guid : ℕ} {vote : RollVote}

theorem voteOf_eq_some (h : r.voteOf guid = some vote) :
    find Prod.fst r.playerVote guid = some (guid, vote) := by
  obtain ⟨⟨g, v⟩, hfind, rfl⟩ := Option.map_eq_some_iff.1 h
  obtain ⟨-, hg⟩ := mem_of_find hfind
  simp only at hg
  rw [hfind, hg]

theorem voteOf_of_mem (hr : (r.playerVote.map Prod.fst).Nodup) {v : ℕ × RollVote}
    (hv : v ∈ r.playerVote) : r.voteOf v.1 = some v.2 := by
  rw [voteOf, find_of_mem hr hv, Option.map_some]

theorem votes_le (r : Roll) (p : RollVote → Bool) : r.votes p ≤ r.playerVote.length :=
  countP_le_length

/-- The votes of a roll are passes, needs, greeds and the votes to come. -/
theorem votes_partition (l : List (ℕ × RollVote)) (h : ∀ v ∈ l, v.2 ≠ .notValid) :
    l.countP (fun v => v.2 = .pass) + l.countP (fun v => v.2 = .need) +
      l.countP (fun v => v.2 = .greed || v.2 = .disenchant) +
      l.countP (fun v => v.2 = .notEmitedYet) = l.length := by
  induction l with
  | nil => rfl
  | cons v l ih =>
    have hrest := ih fun x hx => h x (mem_cons_of_mem _ hx)
    have hv := h v mem_cons_self
    obtain ⟨g, vote⟩ := v
    cases vote <;> simp_all <;> omega

/-- The totals reach the number of players only when everybody has voted. -/
theorem Sound.voted_of_complete (h : r.Sound) (hc : r.complete = true) :
    ∀ v ∈ r.playerVote, v.2 ≠ .notEmitedYet := by
  have hpart := votes_partition r.playerVote h.valid
  have hall : r.totalPlayersRolling = r.playerVote.length := by
    rw [h.rolling, votes, countP_eq_length]
    intro v hv
    simpa using h.valid v hv
  simp only [complete, ge_iff_le, decide_eq_true_eq, hall, h.pass, h.need, h.greed, votes] at hc
  have hzero : r.playerVote.countP (fun v => v.2 = .notEmitedYet) = 0 := by omega
  intro v hv heq
  have hnot := countP_eq_zero.1 hzero v hv
  simp [heq] at hnot

/-! ## The winner -/

theorem best_mem (takesPart : RollVote → Bool) (dice : Dice) :
    ∀ (l : List (ℕ × RollVote)) (k : ℕ) (b : Best),
      best takesPart dice k b l = b ∧ (b.number = 0 → ∀ v ∈ l, takesPart v.2 = false) ∨
      ∃ v ∈ l, takesPart v.2 = true ∧ (best takesPart dice k b l).guid = v.1 ∧
        (best takesPart dice k b l).vote = v.2
  | [], _, _ => .inl ⟨rfl, by simp⟩
  | v :: l, k, b => by
    rw [best]
    split_ifs with hpart hless
    · right
      rcases best_mem takesPart dice l (k + 1) ⟨v.1, dice k + 1, v.2⟩ with ⟨heq, -⟩ | ⟨w, hw, hpart', hrest⟩
      · exact ⟨v, mem_cons_self, hpart, by rw [heq], by rw [heq]⟩
      · exact ⟨w, mem_cons_of_mem _ hw, hpart', hrest⟩
    · rcases best_mem takesPart dice l (k + 1) b with ⟨heq, -⟩ | ⟨w, hw, hrest⟩
      · exact .inl ⟨heq, fun hb => by omega⟩
      · exact .inr ⟨w, mem_cons_of_mem _ hw, hrest⟩
    · rcases best_mem takesPart dice l k b with ⟨heq, hno⟩ | ⟨w, hw, hrest⟩
      · refine .inl ⟨heq, fun hb w hw => ?_⟩
        rcases mem_cons.1 hw with rfl | hw
        · simpa using hpart
        · exact hno hb w hw
      · exact .inr ⟨w, mem_cons_of_mem _ hw, hrest⟩

/-- Where a vote takes part, one of those votes wins. -/
theorem exists_best {takesPart : RollVote → Bool} (dice : Dice) (h : 0 < r.votes takesPart)
    (guid : ℕ) (vote : RollVote) :
    ∃ v ∈ r.playerVote, takesPart v.2 = true ∧
      (best takesPart dice 0 ⟨guid, 0, vote⟩ r.playerVote).guid = v.1 := by
  obtain ⟨w, hw, hpart⟩ := countP_pos_iff.1 h
  rcases best_mem takesPart dice r.playerVote 0 ⟨guid, 0, vote⟩ with
    ⟨-, hno⟩ | ⟨v, hv, hvpart, hguid, -⟩
  · rw [hno rfl w hw] at hpart
    cases hpart
  · exact ⟨v, hv, hvpart, hguid⟩

theorem Sound.fairWinner (h : r.Sound) (dice : Dice) (timer : Bool) :
    Closed.FairWinner ⟨r, r.outcome dice, timer⟩ := by
  have hne : ∀ {p : RollVote → Bool}, 0 < r.votes p → ∃ v l, r.playerVote = v :: l := by
    intro p hp
    cases hvotes : r.playerVote with
    | nil => simp [votes, hvotes] at hp
    | cons v l => exact ⟨v, l, rfl⟩
  unfold outcome
  split_ifs with hneed hgreed
  · rw [h.need] at hneed
    obtain ⟨v0, l, hvotes⟩ := hne hneed
    obtain ⟨v, hv, hpart, hguid⟩ := exists_best dice hneed v0.1 .need
    simp only [decide_eq_true_eq] at hpart
    have hexists : ∃ v ∈ r.playerVote, v.2 = .need := ⟨v, hv, hpart⟩
    have hwin : Closed.FairWinner ⟨r, .need (best (fun vote => vote = .need) dice 0
        ⟨v0.1, 0, .need⟩ r.playerVote), timer⟩ := by
      refine ⟨v.2, ?_, h.allowed v hv (by simp [hpart]), ?_⟩
      · rw [hguid]
        exact voteOf_of_mem h.nodup hv
      · rw [if_pos hexists]
        exact hpart
    simpa only [hvotes] using hwin
  · rw [h.need, not_lt, Nat.le_zero, votes, countP_eq_zero] at hneed
    rw [h.greed] at hgreed
    obtain ⟨v0, l, hvotes⟩ := hne hgreed
    obtain ⟨v, hv, hpart, hguid⟩ := exists_best dice hgreed v0.1 .notValid
    simp only [Bool.or_eq_true, decide_eq_true_eq] at hpart
    have hnot : ¬ ∃ v ∈ r.playerVote, v.2 = .need := by
      rintro ⟨w, hw, heq⟩
      simpa [heq] using hneed w hw
    have hwin : Closed.FairWinner ⟨r, .greed (best (fun vote => vote = .greed || vote = .disenchant)
        dice 0 ⟨v0.1, 0, .notValid⟩ r.playerVote), timer⟩ := by
      refine ⟨v.2, ?_, h.allowed v hv ?_, ?_⟩
      · rw [hguid]
        exact voteOf_of_mem h.nodup hv
      · rcases hpart with hpart | hpart <;> simp [hpart]
      · rw [if_neg hnot]
        exact hpart
    simpa only [hvotes] using hwin
  · rw [h.need, not_lt, Nat.le_zero, votes, countP_eq_zero] at hneed
    rw [h.greed, not_lt, Nat.le_zero, votes, countP_eq_zero] at hgreed
    intro v hv
    have hv1 := hneed v hv
    have hv2 := hgreed v hv
    have hv3 := h.valid v hv
    cases hvote : v.2 <;> simp_all

theorem Sound.fair (h : r.Sound) (dice : Dice) {timer : Bool}
    (hc : timer = false → r.complete = true) : Closed.Fair ⟨r, r.outcome dice, timer⟩ :=
  ⟨h.toTallied, fun ht => h.voted_of_complete (hc ht), h.fairWinner dice timer⟩

/-! ## Votes, and players who leave -/

theorem map_eq_replace (l : List (ℕ × RollVote)) (guid : ℕ) (vote : RollVote) :
    (l.map fun v => if v.1 = guid then (v.1, vote) else v) =
      Keyed.replace Prod.fst l (guid, vote) := by
  refine map_congr_left fun v _ => ?_
  split_ifs with h
  · rw [h]
  · rfl

theorem votes_replace (vote : RollVote) (hr : (r.playerVote.map Prod.fst).Nodup)
    (h : r.voteOf guid = some .notEmitedYet) (p : RollVote → Bool) (hp : p .notEmitedYet = false) :
    (Keyed.replace Prod.fst r.playerVote (guid, vote)).countP (fun v => p v.2) =
      r.votes p + if p vote then 1 else 0 := by
  have hcount := countP_replace (fun v : ℕ × RollVote => p v.2) hr (x := (guid, vote))
    (voteOf_eq_some h)
  simpa only [hp, Bool.false_eq_true, if_false, add_zero, votes] using hcount

/-- A vote in one equation. -/
theorem castVote_eq (r : Roll) (guid : ℕ)
    (hv : vote = .pass ∨ vote = .need ∨ vote = .greed ∨ vote = .disenchant) :
    r.castVote guid vote =
      { r with
        playerVote := Keyed.replace Prod.fst r.playerVote (guid, vote)
        totalPass := if vote = .pass then toU8 (r.totalPass + 1 : ℕ) else r.totalPass
        totalNeed := if vote = .need then toU8 (r.totalNeed + 1 : ℕ) else r.totalNeed
        totalGreed := if vote = .greed || vote = .disenchant then toU8 (r.totalGreed + 1 : ℕ)
          else r.totalGreed } := by
  rcases hv with rfl | rfl | rfl | rfl <;> simp [castVote, map_eq_replace]

theorem tally_add {total n : ℕ} (c : Bool) (h : total = n) (hlt : n < maxRaidSize + 1) :
    (if c then toU8 (total + 1 : ℕ) else total) = n + if c then 1 else 0 := by
  unfold maxRaidSize at hlt
  split_ifs
  · rw [h, toU8_of_lt (by omega)]
  · rw [h, add_zero]

theorem Sound.votes_lt (h : r.Sound) (p : RollVote → Bool) : r.votes p < maxRaidSize + 1 :=
  Nat.lt_succ_of_le ((r.votes_le p).trans h.size)

/-- The first vote of a player. -/
theorem Sound.castVote (h : r.Sound) (hvote : r.voteOf guid = some .notEmitedYet)
    (hv : vote = .pass ∨ vote = .need ∨ vote = .greed ∨ vote = .disenchant)
    (hmask : vote.flag &&& r.rollVoteMask ≠ 0) : (r.castVote guid vote).Sound := by
  have hcount := fun p hp => votes_replace vote h.nodup hvote p hp
  have hvalid : vote ≠ .notValid := by
    rcases hv with rfl | rfl | rfl | rfl <;> decide
  rw [castVote_eq r guid hv]
  refine ⟨⟨?_, ?_, ?_, ?_⟩, ?_, ?_, fun v hv' => ?_, fun v hv' hne => ?_⟩
  · rw [votes, hcount (fun vote => vote = .need) rfl]
    simpa using tally_add (decide (vote = .need)) h.need (h.votes_lt _)
  · rw [votes, hcount (fun vote => vote = .greed || vote = .disenchant) rfl]
    exact tally_add _ h.greed (h.votes_lt _)
  · rw [votes, hcount (fun vote => vote = .pass) rfl]
    simpa using tally_add (decide (vote = .pass)) h.pass (h.votes_lt _)
  · have hc := countP_replace (fun v : ℕ × RollVote => decide (v.2 ≠ .notValid)) h.nodup
      (x := (guid, vote)) (voteOf_eq_some hvote)
    simp only [ne_eq, hvalid, not_false_eq_true, decide_true, if_true, reduceCtorEq,
      add_left_inj] at hc
    simp only [votes, ne_eq]
    rw [hc]
    simpa only [votes, ne_eq] using h.rolling
  · rw [map_key_replace]
    exact h.nodup
  · simpa [Keyed.replace] using h.size
  · rcases mem_replace hv' with rfl | hv'
    · exact hvalid
    · exact h.valid v hv'
  · rcases mem_replace hv' with rfl | hv'
    · exact hmask
    · exact h.allowed v hv' hne

theorem tally_sub {total n m : ℕ} (c : Bool) (h : total = n) (hm : m + (if c then 1 else 0) = n)
    (hlt : n < maxRaidSize + 1) : (if c then toU8 (total + 255 : ℕ) else total) = m := by
  unfold maxRaidSize at hlt
  split_ifs at hm ⊢
  · rw [h, toU8_pred (by omega) (by omega)]
    omega
  · omega

/-- A player who leaves takes his vote with him. -/
theorem Sound.dropPlayer (h : r.Sound) (guid : ℕ) : (r.dropPlayer guid).Sound := by
  unfold Roll.dropPlayer
  cases hvote : r.voteOf guid with
  | none => exact h
  | some vote =>
    have hfind := voteOf_eq_some hvote
    have hvalid : vote ≠ .notValid := h.valid _ (mem_of_find hfind).1
    have hcount := fun p : RollVote → Bool =>
      countP_remove (fun v : ℕ × RollVote => p v.2) h.nodup hfind
    refine ⟨⟨?_, ?_, ?_, ?_⟩, nodup_remove h.nodup guid, ?_,
      fun v hv => h.valid v (mem_remove.1 hv).1,
      fun v hv => h.allowed v (mem_remove.1 hv).1⟩
    · simpa [votes] using tally_sub _ h.need (hcount fun vote => vote = .need) (h.votes_lt _)
    · simpa [votes] using tally_sub _ h.greed (hcount fun vote => vote = .greed || vote = .disenchant)
        (h.votes_lt _)
    · simpa [votes] using tally_sub _ h.pass (hcount fun vote => vote = .pass) (h.votes_lt _)
    · have hrolling := tally_sub _ h.rolling (hcount fun vote => vote ≠ .notValid) (h.votes_lt _)
      simpa [votes, hvalid] using hrolling
    · exact (length_filter_le _ _).trans h.size

/-! ## Opening -/

theorem setVote_perm (vote : RollVote) : ∀ {l : List (ℕ × RollVote)}, guid ∉ l.map Prod.fst →
    (setVote guid vote l).Perm ((guid, vote) :: l)
  | [], _ => List.Perm.refl _
  | v :: l, h => by
    simp only [map_cons, mem_cons, not_or] at h
    rw [setVote]
    split_ifs with hlt heq
    · exact List.Perm.refl _
    · exact absurd heq.symm h.1
    · exact ((setVote_perm vote h.2).cons v).trans (List.Perm.swap _ _ _)

/-- A new player in one equation. -/
theorem addPlayer_eq (r : Roll) (m : RollMember) (canPass : Bool) :
    ∃ pass : Bool, r.addPlayer m canPass =
      { r with
        playerVote := setVote m.looter.guid (if pass then .pass else .notEmitedYet) r.playerVote
        totalPlayersRolling := toU8 (r.totalPlayersRolling + 1 : ℕ)
        totalPass := if pass then toU8 (r.totalPass + 1 : ℕ) else r.totalPass } := by
  refine ⟨canPass && m.passOnGroupLoot, ?_⟩
  unfold addPlayer
  split_ifs <;> rfl

theorem Sound.addPlayer (h : r.Sound) (hmask : RollVote.pass.flag &&& r.rollVoteMask ≠ 0)
    (m : RollMember) (canPass : Bool) (hguid : m.looter.guid ∉ r.playerVote.map Prod.fst)
    (hsize : r.playerVote.length < maxRaidSize) :
    (r.addPlayer m canPass).Sound ∧
      ((r.addPlayer m canPass).playerVote.map Prod.fst).Perm
        (m.looter.guid :: r.playerVote.map Prod.fst) ∧
      (r.addPlayer m canPass).rollVoteMask = r.rollVoteMask := by
  obtain ⟨pass, heq⟩ := addPlayer_eq r m canPass
  rw [heq]
  generalize hv : (if pass then RollVote.pass else RollVote.notEmitedYet) = vote
  have hperm := setVote_perm vote hguid
  have hkeys := hperm.map Prod.fst
  have hmem : ∀ {v}, v ∈ setVote m.looter.guid vote r.playerVote →
      v = (m.looter.guid, vote) ∨ v ∈ r.playerVote := fun hv => mem_cons.1 (hperm.mem_iff.1 hv)
  have hvotes : ∀ p : RollVote → Bool,
      (setVote m.looter.guid vote r.playerVote).countP (fun v => p v.2) =
        r.votes p + if p vote then 1 else 0 := by
    intro p
    rw [hperm.countP_eq, countP_cons, votes]
  have hneed := hvotes fun vote => vote = .need
  have hgreed := hvotes fun vote => vote = .greed || vote = .disenchant
  have hpass := hvotes fun vote => vote = .pass
  have hrolling := hvotes fun vote => vote ≠ .notValid
  refine ⟨⟨⟨?_, ?_, ?_, ?_⟩, ?_, ?_, fun v hv' => ?_, fun v hv' hne => ?_⟩, hkeys, rfl⟩
  · cases pass <;> subst hv <;> exact h.need.trans hneed.symm
  · cases pass <;> subst hv <;> exact h.greed.trans hgreed.symm
  · cases pass <;> subst hv <;> exact (tally_add _ h.pass (h.votes_lt _)).trans hpass.symm
  · cases pass <;> subst hv <;>
      exact (tally_add true h.rolling (h.votes_lt _)).trans hrolling.symm
  · exact hkeys.nodup_iff.2 (nodup_cons.2 ⟨hguid, h.nodup⟩)
  · exact hperm.length_eq.trans_le hsize
  · rcases hmem hv' with rfl | hv'
    · cases pass <;> subst hv <;> simp
    · exact h.valid v hv'
  · rcases hmem hv' with rfl | hv'
    · cases pass <;> subst hv
      · exact absurd rfl hne
      · exact hmask
    · exact h.allowed v hv' hne

theorem Sound.addPlayers (canPass : Bool) :
    ∀ (ms : List RollMember) {r : Roll}, r.Sound →
      RollVote.pass.flag &&& r.rollVoteMask ≠ 0 →
      (r.playerVote.map Prod.fst ++ ms.map fun m => m.looter.guid).Nodup →
      r.playerVote.length + ms.length ≤ maxRaidSize →
      (ms.foldl (fun r m => r.addPlayer m canPass) r).Sound
  | [], _, h, _, _, _ => h
  | m :: ms, r, h, hmask, hnodup, hsize => by
    rw [map_cons, nodup_middle] at hnodup
    obtain ⟨hguid, -⟩ := nodup_cons.1 hnodup
    rw [mem_append, not_or] at hguid
    rw [length_cons] at hsize
    obtain ⟨hsound, hkeys, hm⟩ := h.addPlayer hmask m canPass hguid.1 (by omega)
    refine Sound.addPlayers canPass ms hsound (hm ▸ hmask) ?_ ?_
    · exact (hkeys.append_right _).nodup_iff.2 hnodup
    · have hlen := hkeys.length_eq
      simp only [length_map, length_cons] at hlen ⊢
      omega

theorem sound_openRoll (env : LootEnv) (g : RollGroup) (newGuid lootId itemSlot : ℕ) (quest : Bool)
    (item : LootItem) {mask : ℕ} (hmask : RollVote.pass.flag &&& mask ≠ 0) :
    (openRoll env g newGuid lootId itemSlot quest item mask).Sound := by
  refine Sound.addPlayers _ _ ⟨⟨rfl, rfl, rfl, rfl⟩, nodup_nil, by simp, by simp, by simp⟩
    hmask ?_ ?_
  · exact g.nodup.sublist (filter_sublist.map _)
  · rw [length_nil, zero_add]
    exact (length_filter_le _ _).trans g.size

theorem pass_voteMask (env : LootEnv) (g : RollGroup) (needBeforeGreed : Bool) (item : LootItem) :
    RollVote.pass.flag &&& voteMask env g needBeforeGreed item ≠ 0 := by
  unfold voteMask
  simp only
  split_ifs <;> decide

theorem sound_openRolls (env : LootEnv) (g : RollGroup) (lootId : ℕ) (needBeforeGreed : Bool)
    {o : Opened} (ho : ∀ r ∈ o.rolls, r.Sound) :
    ∀ r ∈ (openRolls env g lootId needBeforeGreed o).rolls, r.Sound := by
  have hadd : ∀ {o : Opened} {r : Roll}, (∀ r ∈ o.rolls, r.Sound) → r.Sound →
      ∀ r' ∈ o.rolls ++ [r], r'.Sound := by
    intro o r ho hr r' hr'
    rcases mem_append.1 hr' with hr' | hr'
    · exact ho r' hr'
    · exact mem_singleton.1 hr' ▸ hr
  have hitem : ∀ (o : Opened) (i : ℕ), (∀ r ∈ o.rolls, r.Sound) →
      ∀ r ∈ (openItem env g lootId needBeforeGreed o i).rolls, r.Sound := by
    intro o i ho
    unfold openItem
    split
    · exact ho
    · simp only
      split_ifs
      · exact ho
      · exact hadd ho (sound_openRoll _ _ _ _ _ _ _ (pass_voteMask _ _ _ _))
      · exact ho
      · exact ho
  have hquest : ∀ (o : Opened) (i : ℕ), (∀ r ∈ o.rolls, r.Sound) →
      ∀ r ∈ (openQuestItem env g lootId o i).rolls, r.Sound := by
    intro o i ho
    unfold openQuestItem
    split
    · exact ho
    · simp only
      split_ifs
      · exact ho
      · exact hadd ho (sound_openRoll _ _ _ _ _ _ _ (by decide))
      · exact ho
  exact List.foldlRecOn _ _ (List.foldlRecOn _ _ ho fun o ho i _ => hitem o i ho)
    fun o ho i _ => hquest o i ho

end Roll

/-! ## Runs -/

namespace RollRoom

variable {room : RollRoom} {itemsEmpty : ℕ → Bool} {r : Roll}

/-- Where a player who votes has voted before, or for a type that the roll does not allow, the roll
is no longer fair. -/
def Allowed (room : RollRoom) : RollEvent → Prop
  | .lootRoll player guid rollType itemsEmpty _ =>
    ∀ i r vote, room.votedRoll player guid itemsEmpty = some (i, r) →
      rollVoteOf rollType = some vote →
      r.voteOf player = some .notEmitedYet ∧ vote.flag &&& r.rollVoteMask ≠ 0
  | _ => True

/-- All open rolls are sound and all counted rolls were fair. -/
structure Fair (room : RollRoom) : Prop where
  sound : ∀ r ∈ room.rolls, r.Sound
  closed : ∀ c ∈ room.closed, c.Fair

theorem mem_of_votedRoll {player guid i : ℕ}
    (h : room.votedRoll player guid itemsEmpty = some (i, r)) : r ∈ room.rolls := by
  obtain ⟨hget, -⟩ := Option.filter_eq_some_iff.1 h
  obtain ⟨j, -, hj⟩ := Option.bind_eq_some_iff.1 hget
  obtain ⟨r', hr', heq⟩ := Option.map_eq_some_iff.1 hj
  cases heq
  exact mem_of_getElem? hr'

theorem rollVoteOf_cases {choice : ℕ} {vote : RollVote} (h : rollVoteOf choice = some vote) :
    vote = .pass ∨ vote = .need ∨ vote = .greed ∨ vote = .disenchant := by
  unfold rollVoteOf at h
  split at h <;> simp_all

/-- A vote of a player who does not take part changes nothing. -/
theorem countRollVote_of_voteOf_none {player guid choice : ℕ} {dice : Roll.Dice}
    (h : ∀ i r, room.getRoll guid = some (i, r) → r.voteOf player = none) :
    room.countRollVote player guid choice itemsEmpty dice = room := by
  have hnone : room.votedRoll player guid itemsEmpty = none := by
    unfold votedRoll
    cases hget : room.getRoll guid with
    | none => rfl
    | some ir => simp [Option.filter, h ir.1 ir.2 hget]
  rw [countRollVote, hnone]

/-- A sound roll is written back, or counted when it is complete. -/
theorem Fair.set_or_close (h : room.Fair) (hr : r.Sound) (i : ℕ) (dice : Roll.Dice) :
    (if r.complete then
      { rolls := room.rolls.eraseIdx i, closed := ⟨r, r.outcome dice, false⟩ :: room.closed }
    else { room with rolls := room.rolls.set i r } : RollRoom).Fair := by
  split_ifs with hcomplete
  · refine ⟨fun r1 hr1 => h.sound r1 (mem_of_mem_eraseIdx hr1), fun c hc => ?_⟩
    rcases mem_cons.1 hc with rfl | hc
    · exact hr.fair dice fun _ => hcomplete
    · exact h.closed c hc
  · refine ⟨fun r1 hr1 => ?_, h.closed⟩
    rcases mem_or_eq_of_mem_set hr1 with hr1 | rfl
    · exact h.sound r1 hr1
    · exact hr

theorem Fair.countRollVote (h : room.Fair) {player guid choice : ℕ} {dice : Roll.Dice}
    (ha : room.Allowed (.lootRoll player guid choice itemsEmpty dice)) :
    (room.countRollVote player guid choice itemsEmpty dice).Fair := by
  unfold RollRoom.countRollVote
  cases hvoted : room.votedRoll player guid itemsEmpty with
  | none => exact h
  | some ir =>
    obtain ⟨i, r⟩ := ir
    have hr := h.sound r (mem_of_votedRoll hvoted)
    cases hvote : rollVoteOf choice with
    | none => exact h.set_or_close hr i dice
    | some vote =>
      obtain ⟨hfirst, hmask⟩ := ha i r vote hvoted hvote
      exact h.set_or_close (hr.castVote hfirst (rollVoteOf_cases hvote) hmask) i dice

theorem Fair.endRoll (h : room.Fair) (lootId : ℕ) (dice : ℕ → Roll.Dice) :
    (room.endRoll lootId dice).Fair := by
  refine ⟨fun r hr => h.sound r (mem_of_mem_filter hr), fun c hc => ?_⟩
  rcases mem_append.1 hc with hc | hc
  · obtain ⟨r, hr, rfl⟩ := mem_map.1 hc
    exact (h.sound r (mem_of_mem_filter hr)).fair _ fun hc => nomatch hc
  · exact h.closed c hc

theorem Fair.step (h : room.Fair) {e : RollEvent} (ha : room.Allowed e) : (room.step e).Fair := by
  cases e with
  | openRolls env g lootId needBeforeGreed loot nextGuid =>
    refine ⟨fun r hr => ?_, h.closed⟩
    rcases mem_append.1 hr with hr | hr
    · exact h.sound r hr
    · exact Roll.sound_openRolls env g lootId needBeforeGreed (by simp) r hr
  | lootRoll player guid rollType itemsEmpty dice => exact h.countRollVote ha
  | removeMember guid =>
    refine ⟨fun r hr => ?_, h.closed⟩
    obtain ⟨r', hr', rfl⟩ := mem_map.1 hr
    exact (h.sound r' hr').dropPlayer guid
  | endRoll lootId dice => exact h.endRoll lootId dice
  | clearLoot lootId =>
    refine ⟨fun r hr => ?_, h.closed⟩
    obtain ⟨r', hr', rfl⟩ := mem_map.1 hr
    have hr' := h.sound r' hr'
    split_ifs
    · exact ⟨⟨hr'.need, hr'.greed, hr'.pass, hr'.rolling⟩, hr'.nodup, hr'.size, hr'.valid,
        hr'.allowed⟩
    · exact hr'

/-- Loot rolls are fair. In every run of a group where every vote is the first one of its player and
of a type that the roll allows : the totals of every open roll are the numbers of votes, and every
counted roll was counted by the timer or when everybody had voted, and has the right winner. -/
theorem rolls_fair (es : List RollEvent) (h : Along step Allowed {} es) :
    (∀ r ∈ (run step {} es).rolls, r.Tallied) ∧ ∀ c ∈ (run step {} es).closed, c.Fair := by
  have hfair : (run step {} es).Fair :=
    invariant_run (fun _ _ h ha => h.step ha) ⟨by simp, by simp⟩ h
  exact ⟨fun r hr => (hfair.sound r hr).toTallied, hfair.closed⟩

/-! ## A small group -/

/-- Two players and a chest with one rare item, which may not be disenchanted. -/
def smallLootEnv : LootEnv where
  items := smallEnv
  proto i := if i = 25 then { quality := 3 } else {}

/-- Two players. -/
def smallRollGroup : RollGroup where
  members := [{ looter := { guid := 1 } }, { looter := { guid := 2 } }]
  nodup := by decide
  size := by decide

/-- The rare item. -/
def rareLoot : Loot where
  items := [{ itemid := 25, count := 1 }]
  unlootedCount := 1

/-- The roll for the rare item is opened. -/
def openRare : RollEvent :=
  .openRolls smallLootEnv smallRollGroup 7 false rareLoot 100

/-- A need vote of a player. -/
def needRare (player : ℕ) : RollEvent :=
  .lootRoll player 100 1 (fun _ => false) fun _ => 0

theorem allowed_needRare {room : RollRoom} {player i : ℕ}
    (h : room.votedRoll player 100 (fun _ => false) = some (i, r))
    (hfirst : r.voteOf player = some .notEmitedYet)
    (hmask : RollVote.need.flag &&& r.rollVoteMask ≠ 0) : room.Allowed (needRare player) := by
  intro i' r' vote hvoted hvote
  rw [h] at hvoted
  cases hvoted
  cases hvote
  exact ⟨hfirst, hmask⟩

/-- The roll for the rare item after some need votes. -/
def rareRoll (votes : List (ℕ × RollVote)) (needs : ℕ) : Roll where
  itemGUID := 100
  itemid := 25
  loot := some 7
  playerVote := votes
  totalPlayersRolling := 2
  totalNeed := needs

/-- Both players vote once. -/
theorem rolls_fair_smallRollGroup :
    (run step {} [openRare, needRare 1, needRare 2]).closed.length = 1 ∧
      ∀ c ∈ (run step {} [openRare, needRare 1, needRare 2]).closed, c.Fair := by
  have halong : Along step Allowed {} [openRare, needRare 1, needRare 2] := by
    have hfirst : ((({} : RollRoom).step openRare).votedRoll 1 100 fun _ => false) =
        some (0, rareRoll [(1, .notEmitedYet), (2, .notEmitedYet)] 0) := by decide +kernel
    have hsecond : (((({} : RollRoom).step openRare).step (needRare 1)).votedRoll 2 100
        fun _ => false) = some (0, rareRoll [(1, .need), (2, .notEmitedYet)] 1) := by
      decide +kernel
    exact ⟨trivial, allowed_needRare hfirst rfl (by decide),
      allowed_needRare hsecond rfl (by decide), trivial⟩
  exact ⟨by decide +kernel, (rolls_fair _ halong).2⟩

/-- The first player votes twice. The roll counts two needs, and is closed before the second player
has voted. -/
theorem countRollVote_twice :
    ∃ c ∈ (run step {} [openRare, needRare 1, needRare 1]).closed,
      c.timer = false ∧ c.roll.totalNeed = 2 ∧
        c.roll.playerVote = [(1, .need), (2, .notEmitedYet)] ∧ ¬ c.Fair := by
  refine ⟨_, mem_singleton.2 rfl, rfl, by decide +kernel, by decide +kernel, fun hfair => ?_⟩
  exact hfair.voted rfl (2, .notEmitedYet) (by decide +kernel) rfl

end RollRoom

end MistyWorld
