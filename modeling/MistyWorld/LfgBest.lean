import Mathlib.Data.List.MinMax
import MistyWorld.LfgSearch
import MistyWorld.Run

/-!
# The best compatible list of a guid

The keys in `CompatibleMapStore` are those of lists of guids with queue data (`Sound.keys`), and
the best compatible list of a guid should be one of its own. Where `FindBestCompatibleInQueue`
looks for it, it takes the first largest key in which the decimals of the guid are found
(`findBest_best`). They are found in the keys of its lists, but also in those of guids with more
digits. `RemoveFromQueue` deletes keys by the same test.

So the best list of an entry is one of its own, and a guid takes no foreign keys with it, as long as
the keys that these two pick hold the guid (`Meets`), and no longer (`kept_iff_meets`).
-/

open Option Function List Machine

namespace MistyWorld

theorem groups_concatenateGuids {check : List ℕ} (hne : check ≠ [])
    (hsize : check.length ≤ maxGroupSize) : 0 < (concatenateGuids check).groups := by
  have hcount := JoinedWords.count_intercalate bar_not_mem_map (map_guidSet_ne_nil hne)
  have hlength : (guidSet check).length ≤ check.length := by
    rw [guidSet, length_insertionSort]
    exact (dedup_sublist check).length_le
  have hpos : 0 < (guidSet check).length := by
    obtain ⟨guid, hguid⟩ := exists_mem_of_ne_nil check hne
    exact length_pos_of_mem (mem_guidSet.2 hguid)
  rw [length_map] at hcount
  rw [LfgKey.groups, concatenateGuids, hcount]
  simp only [maxGroupSize] at hsize
  omega

theorem concatenateGuids_ne_nil {check : List ℕ} (hne : check ≠ []) :
    concatenateGuids check ≠ [] := by
  obtain ⟨guid, hguid⟩ := exists_mem_of_ne_nil check hne
  intro heq
  have hmentions := mentions_of_mem hguid
  rw [heq, LfgKey.mentions, decide_eq_true_eq, infix_nil] at hmentions
  exact guidString_ne_nil guid hmentions

/-! ## The largest key -/

section Largest

variable {compatibles : List (LfgKey × LfgCompatibilityData)} {guid : ℕ} {data : LfgQueueData}

/-- The keys of lists with too few players in which a guid is found. -/
def lessKeys (compatibles : List (LfgKey × LfgCompatibilityData)) (guid : ℕ) : List LfgKey :=
  (compatibles.filter fun p =>
    p.2.compatibility = .withLessPlayers ∧ p.1.mentions guid).map Prod.fst

/-- The first of the largest. -/
def largestKey (compatibles : List (LfgKey × LfgCompatibilityData)) (guid : ℕ) : Option LfgKey :=
  (lessKeys compatibles guid).argmax LfgKey.groups

theorem takeRoles_best (roles : LfgRolesMap) (data : LfgQueueData) :
    (roles.foldl (fun data p => data.takeRole p.2) data).bestCompatible =
      data.bestCompatible := by
  induction roles generalizing data with
  | nil => rfl
  | cons p roles ih =>
    rw [foldl_cons, ih, LfgQueueData.takeRole]
    split_ifs <;> rfl

theorem updateBest_best (data : LfgQueueData) (key : LfgKey) (roles : LfgRolesMap) :
    (data.updateBest key roles).bestCompatible =
      if key.groups ≤ (if data.bestCompatible = [] then 0 else data.bestCompatible.groups) then
        data.bestCompatible
      else key := by
  rw [LfgQueueData.updateBest]
  generalize (if data.bestCompatible = [] then 0 else data.bestCompatible.groups) = storedSize
  split_ifs
  · rfl
  · rw [takeRoles_best]

/-- `FindBestCompatibleInQueue` finds the first of the largest keys. -/
theorem findBest_best (hkeys : ∀ p ∈ compatibles, p.1 ≠ [] ∧ 0 < p.1.groups)
    (hdata : data.bestCompatible = []) :
    (findBest compatibles guid data).bestCompatible = (largestKey compatibles guid).getD [] := by
  induction compatibles using List.reverseRecOn with
  | nil => exact hdata
  | append_singleton compatibles p ih =>
    have hfound := ih fun q hq => hkeys q (mem_append_left _ hq)
    rw [findBest] at hfound ⊢
    rw [foldl_append, foldl_cons, foldl_nil, largestKey, lessKeys,
      filter_append, map_append]
    by_cases hp : p.2.compatibility = .withLessPlayers ∧ p.1.mentions guid
    · rw [if_pos hp, filter_singleton, decide_eq_true hp, updateBest_best, hfound, largestKey]
      show _ = Option.getD (List.argmax LfgKey.groups (lessKeys compatibles guid ++ [p.1])) []
      rw [argmax_concat]
      cases hlargest : (lessKeys compatibles guid).argmax LfgKey.groups with
      | none => simp [(hkeys p (by simp)).2.ne']
      | some key =>
        have hkey : key ≠ [] := by
          obtain ⟨q, hq, rfl⟩ := mem_map.1 (argmax_mem hlargest)
          exact (hkeys q (mem_append_left _ (mem_of_mem_filter hq))).1
        by_cases hless : key.groups < p.1.groups
        · simp [hkey, hless]
        · simp [hkey, hless, not_lt.1 hless]
    · rw [if_neg hp, filter_singleton, decide_eq_false hp, hfound, largestKey, lessKeys]
      simp

end Largest

namespace LfgQueue

variable {env : LfgView} {s s' s'' : LfgQueue} {check : List ℕ} {guid : ℕ} {key : LfgKey}

/-! ## What is kept -/

/-- A guid has queue data. -/
def Has (s : LfgQueue) (guid : ℕ) : Prop :=
  (s.queueData guid).isSome

/-- A key is that of a list of guids with queue data. -/
def KeyOf (s : LfgQueue) (key : LfgKey) : Prop :=
  ∃ check, check ≠ [] ∧ check.length ≤ maxGroupSize ∧ (∀ guid ∈ check, s.Has guid) ∧
    key = concatenateGuids check

/-- The best compatible list of an entry is empty, or it has the guid of the entry and only guids
with queue data. -/
def Best (s : LfgQueue) (guid : ℕ) (data : LfgQueueData) : Prop :=
  data.bestCompatible = [] ∨ ∃ check, guid ∈ check ∧ (∀ guid ∈ check, s.Has guid) ∧
    data.bestCompatible = concatenateGuids check

/-- The best compatible lists of all entries are right. -/
def Bests (s : LfgQueue) : Prop :=
  ∀ guid data, s.queueData guid = some data → s.Best guid data

/-- The invariant of a queue. -/
structure Sound (s : LfgQueue) : Prop where
  queues : ∀ guid ∈ s.newToQueue ++ s.currentQueue, s.Has guid
  keys : ∀ p ∈ s.compatibles, s.KeyOf p.1
  bests : s.Bests

/-- What a check does to a queue : the entries stay, and no guid is queued. -/
structure Searched (s s' : LfgQueue) : Prop where
  has : ∀ guid, s'.Has guid ↔ s.Has guid
  sound : s'.Sound
  newToQueue : s'.newToQueue.Sublist s.newToQueue
  currentQueue : s'.currentQueue.Sublist s.currentQueue

theorem Searched.refl (h : s.Sound) : Searched s s :=
  ⟨fun _ => Iff.rfl, h, List.Sublist.refl _, List.Sublist.refl _⟩

theorem Searched.trans (h : Searched s s') (h' : Searched s' s'') : Searched s s'' where
  has guid := (h'.has guid).trans (h.has guid)
  sound := h'.sound
  newToQueue := h'.newToQueue.trans h.newToQueue
  currentQueue := h'.currentQueue.trans h.currentQueue

theorem KeyOf.mono (hhas : ∀ guid, s.Has guid → s'.Has guid) (h : s.KeyOf key) : s'.KeyOf key := by
  obtain ⟨check, hne, hsize, hall, rfl⟩ := h
  exact ⟨check, hne, hsize, fun guid hguid => hhas guid (hall guid hguid), rfl⟩

theorem Best.mono {data : LfgQueueData} (hhas : ∀ guid, s.Has guid → s'.Has guid)
    (h : s.Best guid data) : s'.Best guid data :=
  h.imp_right fun ⟨check, hguid, hall, heq⟩ =>
    ⟨check, hguid, fun g hg => hhas g (hall g hg), heq⟩

theorem KeyOf.ne_nil (h : s.KeyOf key) : key ≠ [] ∧ 0 < key.groups := by
  obtain ⟨check, hne, hsize, -, rfl⟩ := h
  exact ⟨concatenateGuids_ne_nil hne, groups_concatenateGuids hne hsize⟩

/-- A key that holds a guid is that of a list with the guid. -/
theorem KeyOf.list (h : s.KeyOf key) (hguid : key.holds guid) :
    ∃ check, guid ∈ check ∧ (∀ guid ∈ check, s.Has guid) ∧ key = concatenateGuids check := by
  obtain ⟨check, hne, -, hall, rfl⟩ := h
  exact ⟨check, (holds_concatenateGuids hne).1 hguid, hall, rfl⟩

/-! ## Checks -/

theorem searched_setCompatibilityData (h : s.Sound) (hkey : s.KeyOf key)
    (data : LfgCompatibilityData) : Searched s (s.setCompatibilityData key data) where
  has _ := Iff.rfl
  sound := by
    refine ⟨h.queues, fun p hp => ?_, h.bests⟩
    rcases SortedMap.mem_of_mem_insert hp with rfl | hp
    · exact hkey
    · exact h.keys p hp
  newToQueue := List.Sublist.refl _
  currentQueue := List.Sublist.refl _

theorem searched_updateBestOf (h : s.Sound) (hguid : guid ∈ check)
    (hall : ∀ guid ∈ check, s.Has guid) (roles : LfgRolesMap) :
    Searched s (updateBestOf (concatenateGuids check) roles s guid) := by
  have hhas : ∀ guid', (updateBestOf (concatenateGuids check) roles s guid).Has guid' ↔
      s.Has guid' := fun guid' => by
    by_cases heq : guid' = guid
    · subst heq
      simp [Has, updateBestOf]
    · simp [Has, updateBestOf, update_of_ne heq]
  refine ⟨hhas, ⟨fun g hg => (hhas g).2 (h.queues g hg),
    fun p hp => (h.keys p hp).mono fun g => (hhas g).2, fun guid' data hdata => ?_⟩,
    List.Sublist.refl _, List.Sublist.refl _⟩
  refine Best.mono (fun g => (hhas g).2) ?_
  by_cases heq : guid' = guid
  · subst heq
    simp only [updateBestOf, update_self, map_eq_some_iff] at hdata
    obtain ⟨old, hold, rfl⟩ := hdata
    rw [Best, updateBest_best]
    generalize (if old.bestCompatible = [] then 0 else old.bestCompatible.groups) = storedSize
    split_ifs
    · exact h.bests guid' old hold
    · exact .inr ⟨check, hguid, hall, rfl⟩
  · simp only [updateBestOf, update_of_ne heq] at hdata
    exact h.bests guid' data hdata

theorem searched_leaveQueues (h : s.Sound) : Searched s (s.leaveQueues guid) where
  has _ := Iff.rfl
  sound := by
    refine ⟨fun g hg => h.queues g ?_, h.keys, h.bests⟩
    rcases mem_append.1 hg with hg | hg
    · exact mem_append_left _ (mem_of_mem_filter hg)
    · exact mem_append_right _ (mem_of_mem_filter hg)
  newToQueue := filter_sublist
  currentQueue := filter_sublist

/-- The guids of a list are treated one after the other. -/
theorem searched_foldl {step : LfgQueue → ℕ → LfgQueue}
    (hstep : ∀ s guid, s.Sound → guid ∈ check → (∀ guid ∈ check, s.Has guid) →
      Searched s (step s guid)) (h : s.Sound) (hall : ∀ guid ∈ check, s.Has guid) :
    Searched s (check.foldl step s) := by
  have hpart : ∀ (part : List ℕ) (s : LfgQueue), part ⊆ check → s.Sound →
      (∀ guid ∈ check, s.Has guid) → Searched s (part.foldl step s) := by
    intro part
    induction part with
    | nil => exact fun s _ h _ => Searched.refl h
    | cons guid part ih =>
      intro s hsub h hall
      obtain ⟨hguid, hrest⟩ := cons_subset.1 hsub
      have hone := hstep s guid h hguid hall
      exact hone.trans (ih _ hrest hone.sound fun g hg => (hone.has g).2 (hall g hg))
  exact hpart check s (List.Subset.refl check) h hall

theorem count_ok (env : LfgView) (hall : ∀ guid ∈ check, s.Has guid) :
    ∀ c, ∃ c', count env s check c = .ok c' := by
  induction check with
  | nil => exact fun c => ⟨c, rfl⟩
  | cons guid check ih =>
    intro c
    obtain ⟨data, hdata⟩ := isSome_iff_exists.1 (hall guid mem_cons_self)
    rw [count, hdata]
    split_ifs
    · exact ih (fun g hg => hall g (mem_cons_of_mem guid hg)) _
    · exact ⟨c, rfl⟩

section Check

variable (env) (h : s.Sound) (hne : check ≠ []) (hsize : check.length ≤ maxGroupSize)
  (hall : ∀ guid ∈ check, s.Has guid)
include h hne hsize hall

theorem searched_less (roles : LfgRolesMap) :
    Searched s ((check.foldl (updateBestOf (concatenateGuids check) roles) s).setCompatibilityData
      (concatenateGuids check) ⟨.withLessPlayers, roles⟩) := by
  have hbests : Searched s (check.foldl (updateBestOf (concatenateGuids check) roles) s) :=
    searched_foldl (fun s _ h hguid hall => searched_updateBestOf h hguid hall roles) h hall
  exact hbests.trans (searched_setCompatibilityData hbests.sound
    ⟨check, hne, hsize, fun g hg => (hbests.has g).2 (hall g hg), rfl⟩ _)

theorem searched_setCompatibles (compatibles : LfgCompatibility) :
    Searched s (s.setCompatibles (concatenateGuids check) compatibles) :=
  searched_setCompatibilityData h ⟨check, hne, hsize, hall, rfl⟩ _

theorem searched_checkAgreed (c : Count) (roles : LfgRolesMap) :
    Searched s (checkAgreed env check c roles s).2 := by
  unfold checkAgreed
  split_ifs
  · exact searched_less h hne hsize hall roles
  · exact searched_setCompatibles h hne hsize hall _
  · have hleave : Searched s (check.foldl leaveQueues s) :=
      searched_foldl (fun s _ h _ _ => searched_leaveQueues h) h hall
    -- the proposal is no part of what is kept
    have hproposal : Searched s
        { check.foldl leaveQueues s with
          proposals := (check.foldl leaveQueues s).proposals ++ [proposal env check c roles] } :=
      ⟨hleave.has, ⟨hleave.sound.queues, hleave.sound.keys, hleave.sound.bests⟩,
        hleave.newToQueue, hleave.currentQueue⟩
    exact hproposal.trans (searched_setCompatibles hproposal.sound hne hsize
      (fun g hg => (hproposal.has g).2 (hall g hg)) _)

theorem searched_checkGroups : Searched s (checkGroups env check s).2 := by
  obtain ⟨c, hc⟩ := count_ok env hall {}
  unfold checkGroups
  rw [hc]
  dsimp only
  split_ifs
  · exact searched_less h hne hsize hall _
  · exact searched_setCompatibles h hne hsize hall _
  · exact searched_setCompatibles h hne hsize hall _
  · cases agreedRoles env s check c.numPlayers with
    | error compatibility => exact searched_setCompatibles h hne hsize hall _
    | ok roles => exact searched_checkAgreed env h hne hsize hall c roles

end Check

theorem searched_checkCompatibility (env : LfgView) : ∀ {check : List ℕ} {s : LfgQueue},
    s.Sound → (∀ guid ∈ check, s.Has guid) → Searched s (checkCompatibility env check s).2
  | [], _, h, _ => Searched.refl h
  | guid :: check, s, h, hall => by
    have hne : guid :: check ≠ [] := cons_ne_nil guid check
    rw [checkCompatibility]
    split_ifs with hlarge hmore
    · exact Searched.refl h
    · have hchild := searched_checkCompatibility env h
        fun g hg => hall g (mem_cons_of_mem guid hg)
      have hall' : ∀ g ∈ guid :: check, (checkCompatibility env check s).2.Has g :=
        fun g hg => (hchild.has g).2 (hall g hg)
      dsimp only
      split_ifs
      · exact hchild.trans
          (searched_setCompatibles hchild.sound hne (not_lt.1 hlarge) hall' _)
      · exact hchild.trans
          (searched_checkGroups env hchild.sound hne (not_lt.1 hlarge) hall')
    · exact searched_checkGroups env h hne (not_lt.1 hlarge) hall

/-- A compatibility that is stored has a key. -/
theorem Sound.keyOf (h : s.Sound) (hstored : s.getCompatibles key ≠ .pending) : s.KeyOf key := by
  rw [getCompatibles] at hstored
  cases hfind : SortedMap.find s.compatibles key with
  | none => exact absurd (by rw [hfind]) hstored
  | some data => exact h.keys _ (SortedMap.mem_of_find hfind)

theorem searched_lookCompatibility (env : LfgView) (h : s.Sound) (hne : check ≠ [])
    (hall : ∀ guid ∈ check, s.Has guid) : Searched s (lookCompatibility env check s).2 := by
  rw [lookCompatibility]
  by_cases hpending : s.getCompatibles (concatenateGuids check) = .pending
  · have hcheck := searched_checkCompatibility env h hall
    split_ifs with hbad
    · have hsize : check.length ≤ maxGroupSize := by
        by_contra hlarge
        cases check with
        | nil => exact hne rfl
        | cons guid check =>
          rw [checkCompatibility, if_pos (not_le.1 hlarge)] at hbad
          cases hbad.1
      exact hcheck.trans (searched_setCompatibles hcheck.sound hne hsize
        (fun g hg => (hcheck.has g).2 (hall g hg)) _)
    · exact hcheck
  · rw [if_neg hpending]
    split_ifs
    · exact searched_setCompatibilityData h (h.keyOf hpending) _
    · exact Searched.refl h

theorem searched_search (env : LfgView) : ∀ {all check : List ℕ} {s : LfgQueue}, s.Sound →
    (∀ guid ∈ check, s.Has guid) → (∀ guid ∈ all, s.Has guid) →
      Searched s (search env check all s).2
  | [], _, _, h, _, _ => Searched.refl h
  | guid :: all, check, s, h, hcheck, hall => by
    have hmore : ∀ g ∈ check ++ [guid], s.Has g := fun g hg => by
      rcases mem_append.1 hg with hg | hg
      · exact hcheck g hg
      · exact mem_singleton.1 hg ▸ hall guid mem_cons_self
    have hfound := searched_lookCompatibility env h (append_ne_nil check guid) hmore
    have hrest : ∀ g ∈ all, (lookCompatibility env (check ++ [guid]) s).2.Has g :=
      fun g hg => (hfound.has g).2 (hall g (mem_cons_of_mem guid hg))
    rw [search]
    split_ifs
    · exact hfound
    · exact hfound.trans (searched_search env hfound.sound
        (fun g hg => (hfound.has g).2 (hmore g hg)) hrest)
    · exact hfound.trans (searched_search env hfound.sound
        (fun g hg => (hfound.has g).2 (hcheck g hg)) hrest)

theorem searched_findNewGroups (env : LfgView) {all : List ℕ} {fuel : ℕ} (h : s.Sound)
    (hfuel : all.length < fuel) (hne : check ≠ []) (hcheck : ∀ guid ∈ check, s.Has guid)
    (hall : ∀ guid ∈ all, s.Has guid) :
    ∃ c left s', findNewGroups env fuel check all s = some (c, left, s') ∧ Searched s s' := by
  have hfound := searched_lookCompatibility env h hne hcheck
  obtain ⟨hstop, hgo⟩ := findNewGroups_eq env check s hfuel
  by_cases hless : (lookCompatibility env check s).1 = .withLessPlayers
  · obtain ⟨left, heq⟩ := hgo hless
    exact ⟨_, left, _, heq, hfound.trans (searched_search env hfound.sound
      (fun g hg => (hfound.has g).2 (hcheck g hg)) fun g hg => (hfound.has g).2 (hall g hg))⟩
  · obtain ⟨left, heq⟩ := hstop hless
    exact ⟨_, left, _, heq, hfound⟩

/-- `FindGroups` ends after as many rounds as there are new guids. -/
theorem findGroups_sound (env : LfgView) (rounds : ℕ) : ∀ {proposals : ℕ} {s : LfgQueue},
    s.Sound → s.newToQueue.length ≤ rounds →
      ∃ n s', findGroups env rounds proposals s = some (n, s') ∧ s'.Sound := by
  induction rounds with
  | zero =>
    intro proposals s h hrounds
    have hnew := length_eq_zero_iff.1 (Nat.le_zero.1 hrounds)
    exact ⟨proposals, s, by simp [findGroups, hnew], h⟩
  | succ rounds ih =>
    intro proposals s h hrounds
    unfold findGroups
    cases hnew : s.newToQueue with
    | nil => exact ⟨proposals, s, rfl, h⟩
    | cons frontguid rest =>
      have hfront : s.Has frontguid := h.queues frontguid (by simp [hnew])
      have hstart : Sound { s with newToQueue := s.newToQueue.filter (· ≠ frontguid) } := by
        refine ⟨fun g hg => h.queues g ?_, h.keys, h.bests⟩
        rcases mem_append.1 hg with hg | hg
        · exact mem_append_left _ (mem_of_mem_filter hg)
        · exact mem_append_right _ hg
      obtain ⟨c, left, s', heq, hs'⟩ := searched_findNewGroups env hstart
        (Nat.lt_succ_self s.currentQueue.length) (cons_ne_nil frontguid [])
        (fun g hg => mem_singleton.1 hg ▸ hfront)
        fun g hg => h.queues g (mem_append_right _ hg)
      have hfewer : s'.newToQueue.length ≤ rounds := by
        have hsub := hs'.newToQueue.length_le
        have hfilter : (s.newToQueue.filter (· ≠ frontguid)).length ≤ rest.length := by
          rw [hnew, filter_cons_of_neg (by simp)]
          exact length_filter_le _ _
        rw [hnew, length_cons] at hrounds
        exact hsub.trans (hfilter.trans (by omega))
      rw [hnew] at heq
      dsimp only
      rw [heq]
      dsimp only
      split_ifs
      · exact ih hs'.sound hfewer
      · refine ih ⟨fun g hg => ?_, hs'.sound.keys, hs'.sound.bests⟩ hfewer
        rw [← append_assoc] at hg
        rcases mem_append.1 hg with hg | hg
        · exact hs'.sound.queues g hg
        · exact mem_singleton.1 hg ▸ (hs'.has frontguid).2 hfront

/-! ## Calls -/

/-- What the manager asks of a queue. -/
inductive Call
  | addQueueData (guid : ℕ) (dungeons : Finset ℕ) (roles : LfgRolesMap)
  | findGroups (env : LfgView)
  | removeFromQueue (guid : ℕ)
  | updateQueueTimers

/-- A call. -/
def serve (s : LfgQueue) : Call → LfgQueue
  | .addQueueData guid dungeons roles => s.addQueueData guid dungeons roles
  | .findGroups env =>
    match s.findGroups env s.newToQueue.length 0 with
    | some (_, s') => s'
    | none => s
  | .removeFromQueue guid => s.removeFromQueue guid
  | .updateQueueTimers => s.updateQueueTimers

/-- The best compatible lists stay right, and what leaves takes the keys of its lists with it. -/
def Kept (s : LfgQueue) (call : Call) : Prop :=
  (serve s call).Bests ∧
    match call with
    | .removeFromQueue guid =>
      ∀ p ∈ s.compatibles, p ∈ (serve s call).compatibles ↔ ¬ p.1.holds guid
    | _ => True

/-- The keys in which the leaving guid is found hold it, and where a best compatible list is looked
for, the first largest key in which the guid is found holds it. -/
def Meets (s : LfgQueue) : Call → Prop
  | .removeFromQueue guid =>
    (∀ p ∈ s.compatibles, p.1.mentions guid → p.1.holds guid) ∧
      ∀ other data, other ≠ guid → s.queueData other = some data →
        data.bestCompatible.mentions guid →
          ∀ key ∈ largestKey (s.removeFromCompatibles guid).compatibles other, key.holds other
  | .updateQueueTimers =>
    ∀ guid data, s.queueData guid = some data → data.bestCompatible = [] →
      ∀ key ∈ largestKey s.compatibles guid, key.holds guid
  | _ => True

/-- A best compatible list that is looked for is right when the key that is found holds the guid. -/
theorem best_findBest_iff {compatibles : List (LfgKey × LfgCompatibilityData)}
    {data : LfgQueueData} (hkeys : ∀ p ∈ compatibles, s.KeyOf p.1)
    (hdata : data.bestCompatible = []) :
    s.Best guid (findBest compatibles guid data) ↔
      ∀ key ∈ largestKey compatibles guid, key.holds guid := by
  rw [Best, findBest_best (fun p hp => (hkeys p hp).ne_nil) hdata]
  cases hlargest : largestKey compatibles guid with
  | none => simp
  | some key =>
    have hkey : s.KeyOf key := by
      obtain ⟨p, hp, rfl⟩ := mem_map.1 (argmax_mem hlargest)
      exact hkeys p (mem_of_mem_filter hp)
    constructor
    · rintro (hnil | ⟨check, hguid, -, rfl⟩) key' hkey'
      · exact (hkey.ne_nil.1 hnil).elim
      · obtain rfl := some.inj hkey'
        exact ⟨check, hguid, rfl⟩
    · exact fun hholds => .inr (hkey.list (hholds key rfl))

theorem has_addQueueData {dungeons : Finset ℕ} {roles : LfgRolesMap} {guid' : ℕ} :
    (s.addQueueData guid dungeons roles).Has guid' ↔ guid' = guid ∨ s.Has guid' := by
  have hdata : (s.addQueueData guid dungeons roles).queueData =
      update s.queueData guid (some { dungeons, roles }) := by
    rw [addQueueData, addToQueue]
    split_ifs <;> rfl
  rw [Has, Has, hdata]
  by_cases heq : guid' = guid
  · subst heq
    simp
  · rw [update_of_ne heq, or_iff_right heq]

theorem sound_addQueueData (h : s.Sound) (dungeons : Finset ℕ) (roles : LfgRolesMap) :
    (s.addQueueData guid dungeons roles).Sound := by
  have hmore : ∀ g, s.Has g → (s.addQueueData guid dungeons roles).Has g :=
    fun g hg => has_addQueueData.2 (.inr hg)
  have hnew : s.addQueueData guid dungeons roles =
      { s with
        queueData := update s.queueData guid (some { dungeons, roles })
        newToQueue := s.newToQueue ++ [guid] } := by
    rw [addQueueData, addToQueue, if_pos (by simp)]
  refine ⟨fun g hg => ?_, fun p hp => ?_, fun g data hdata => ?_⟩
  · rw [has_addQueueData]
    rw [hnew] at hg
    simp only [mem_append, mem_singleton] at hg
    rcases hg with (hg | hg) | hg
    · exact .inr (h.queues g (mem_append_left _ hg))
    · exact .inl hg
    · exact .inr (h.queues g (mem_append_right _ hg))
  · rw [hnew] at hp
    exact (h.keys p hp).mono hmore
  · rw [hnew] at hdata
    by_cases heq : g = guid
    · subst heq
      simp only [update_self, some.injEq] at hdata
      exact .inl (by rw [← hdata])
    · simp only [update_of_ne heq] at hdata
      exact (h.bests g data hdata).mono hmore

theorem has_removeFromQueue {guid' : ℕ} :
    (s.removeFromQueue guid).Has guid' ↔ guid' ≠ guid ∧ s.Has guid' := by
  rw [Has, removeFromQueue]
  by_cases heq : guid' = guid
  · simp [heq]
  · simp [heq, Has, removeFromCompatibles, leaveQueues]

/-- The lists without a guid are still there when it has left. -/
theorem KeyOf.removeFromQueue (h : s.KeyOf key) (hkey : ¬ key.mentions guid) :
    (s.removeFromQueue guid).KeyOf key := by
  obtain ⟨check, hne, hsize, hall, rfl⟩ := h
  refine ⟨check, hne, hsize, fun g hg => has_removeFromQueue.2 ⟨?_, hall g hg⟩, rfl⟩
  rintro rfl
  exact hkey (mentions_of_mem hg)

theorem mem_removeFromQueue {p : LfgKey × LfgCompatibilityData} :
    p ∈ (s.removeFromQueue guid).compatibles ↔ p ∈ s.compatibles ∧ ¬ p.1.mentions guid := by
  simp [removeFromQueue, removeFromCompatibles, leaveQueues]

theorem keys_removeFromQueue (h : s.Sound) :
    ∀ p ∈ (s.removeFromQueue guid).compatibles, (s.removeFromQueue guid).KeyOf p.1 := by
  intro p hp
  obtain ⟨hmem, hnot⟩ := mem_removeFromQueue.1 hp
  exact (h.keys p hmem).removeFromQueue hnot

theorem bests_removeFromQueue_iff (h : s.Sound) : (s.removeFromQueue guid).Bests ↔
    ∀ other data, other ≠ guid → s.queueData other = some data →
      data.bestCompatible.mentions guid →
        ∀ key ∈ largestKey (s.removeFromCompatibles guid).compatibles other, key.holds other := by
  have hdata : ∀ {other}, other ≠ guid → (s.removeFromQueue guid).queueData other =
      (s.queueData other).map
        (forgetBest (s.removeFromQueue guid).compatibles guid other) := fun hother => by
    exact if_neg hother
  constructor
  · intro hbests other data hother hsome hmentions
    have hbest := hbests other _ (by rw [hdata hother, hsome, map_some])
    rw [forgetBest, if_pos hmentions,
      best_findBest_iff (keys_removeFromQueue h) rfl] at hbest
    exact hbest
  · intro hmeets other data' hdata'
    by_cases hother : other = guid
    · subst hother
      rw [removeFromQueue] at hdata'
      simp at hdata'
    · rw [hdata hother, map_eq_some_iff] at hdata'
      obtain ⟨data, hsome, rfl⟩ := hdata'
      rw [forgetBest]
      split_ifs with hmentions
      · exact (best_findBest_iff (keys_removeFromQueue h) rfl).2
          (hmeets other data hother hsome hmentions)
      · rcases h.bests other data hsome with hnil | ⟨check, hmem, hall, heq⟩
        · exact .inl hnil
        · refine .inr ⟨check, hmem, fun g hg => has_removeFromQueue.2 ⟨?_, hall g hg⟩, heq⟩
          rintro rfl
          exact hmentions (heq ▸ mentions_of_mem hg)

theorem has_updateQueueTimers : s.updateQueueTimers.Has guid ↔ s.Has guid := by
  rw [Has, updateQueueTimers, isSome_map, Has]

theorem keys_updateQueueTimers (h : s.Sound) :
    ∀ p ∈ s.compatibles, s.updateQueueTimers.KeyOf p.1 :=
  fun p hp => (h.keys p hp).mono fun _ => has_updateQueueTimers.2

theorem bests_updateQueueTimers_iff (h : s.Sound) : s.updateQueueTimers.Bests ↔
    ∀ guid data, s.queueData guid = some data → data.bestCompatible = [] →
      ∀ key ∈ largestKey s.compatibles guid, key.holds guid := by
  have hkeys := keys_updateQueueTimers h
  have hdata : ∀ guid, s.updateQueueTimers.queueData guid = (s.queueData guid).map fun data =>
      if data.bestCompatible = [] then findBest s.compatibles guid data else data := fun _ => rfl
  constructor
  · intro hbests guid data hsome hnil
    have hbest := hbests guid _ (by rw [hdata, hsome, map_some])
    rw [if_pos hnil, best_findBest_iff hkeys hnil] at hbest
    exact hbest
  · intro hmeets guid data' hdata'
    rw [hdata, map_eq_some_iff] at hdata'
    obtain ⟨data, hsome, rfl⟩ := hdata'
    split_ifs with hnil
    · exact (best_findBest_iff hkeys hnil).2 (hmeets guid data hsome hnil)
    · exact (h.bests guid data hsome).mono fun _ => has_updateQueueTimers.2

theorem sound_findGroups (h : s.Sound) (env : LfgView) : (serve s (.findGroups env)).Sound := by
  obtain ⟨n, s', heq, hs'⟩ := findGroups_sound env s.newToQueue.length h (le_refl _)
  rw [serve, heq]
  exact hs'

theorem kept_iff_meets_of_sound (h : s.Sound) (call : Call) : Kept s call ↔ Meets s call := by
  cases call with
  | addQueueData guid dungeons roles =>
    exact iff_of_true ⟨(sound_addQueueData h dungeons roles).bests, trivial⟩ trivial
  | findGroups env => exact iff_of_true ⟨(sound_findGroups h env).bests, trivial⟩ trivial
  | removeFromQueue guid =>
    rw [Kept, Meets, serve, bests_removeFromQueue_iff h, and_comm]
    refine and_congr_left' (forall₂_congr fun p hp => ?_)
    rw [mem_removeFromQueue, and_iff_right hp, not_iff_not]
    exact ⟨Iff.mp, fun hholds => ⟨hholds, LfgKey.holds.mentions⟩⟩
  | updateQueueTimers =>
    exact (and_iff_left trivial).trans (bests_updateQueueTimers_iff h)

theorem sound_serve (h : s.Sound) {call : Call} (hkept : Kept s call) : (serve s call).Sound := by
  cases call with
  | addQueueData guid dungeons roles => exact sound_addQueueData h dungeons roles
  | findGroups env => exact sound_findGroups h env
  | removeFromQueue guid =>
    refine ⟨fun g hg => ?_, keys_removeFromQueue h, hkept.1⟩
    simp only [serve, removeFromQueue, removeFromCompatibles, leaveQueues, mem_append,
      mem_filter, decide_eq_true_eq] at hg
    refine has_removeFromQueue.2 ?_
    rcases hg with ⟨hg, hne⟩ | ⟨hg, hne⟩
    · exact ⟨hne, h.queues g (mem_append_left _ hg)⟩
    · exact ⟨hne, h.queues g (mem_append_right _ hg)⟩
  | updateQueueTimers =>
    exact ⟨fun g hg => has_updateQueueTimers.2 (h.queues g hg), keys_updateQueueTimers h, hkept.1⟩

theorem sound_empty : Sound {} :=
  ⟨nofun, nofun, nofun⟩

/-- In a run from an empty queue, all best compatible lists are right in every state and each guid
that leaves takes exactly the keys of its lists with it, as long as the keys that are picked hold
the guids they are picked for. -/
theorem kept_iff_meets (calls : List Call) :
    Along serve Kept {} calls ↔ Along serve Meets {} calls :=
  Along.iff_of_invariant (fun _ call h => kept_iff_meets_of_sound h call)
    (fun _ _ h hkept => sound_serve h hkept) sound_empty

/-- The guid 12 waits for a group, and then the guid 2. -/
def twelveAndTwo : List Call :=
  [.addQueueData 12 {7} [(12, 0x04#8)], .findGroups allQueuedView,
    .addQueueData 2 {7} [(2, 0x08#8)], .updateQueueTimers]

theorem twelve_not_holds_two : ¬ LfgKey.holds ['1', '2'] 2 := by
  have hkey : concatenateGuids [12] = ['1', '2'] := by decide
  rw [← hkey, holds_concatenateGuids (cons_ne_nil 12 [])]
  decide

/-- The guid 2 is found in the key of 12. It becomes his best compatible list, and when he leaves,
it is deleted. -/
theorem run_twelveAndTwo :
    ¬ (run serve {} twelveAndTwo).Bests ∧
      ∃ p ∈ (run serve {} twelveAndTwo).compatibles, ¬ p.1.holds 2 ∧
        p ∉ ((run serve {} twelveAndTwo).removeFromQueue 2).compatibles := by
  constructor
  · intro hbests
    have hbest : ((run serve {} twelveAndTwo).queueData 2).map (·.bestCompatible) =
        some ['1', '2'] := by decide +kernel
    obtain ⟨data, hdata, hkey⟩ := map_eq_some_iff.1 hbest
    rcases hbests 2 data hdata with hnil | ⟨check, hmem, -, heq⟩
    · rw [hkey] at hnil
      exact absurd hnil nofun
    · exact twelve_not_holds_two ⟨check, hmem, hkey ▸ heq⟩
  · have hkeys : (run serve {} twelveAndTwo).compatibles.map Prod.fst = [['1', '2']] := by
      decide +kernel
    obtain ⟨p, hp, hkey⟩ := mem_map.1 (hkeys ▸ mem_singleton_self _)
    have hmentions : p.1.mentions 2 := by
      rw [hkey]
      decide
    refine ⟨p, hp, hkey ▸ twelve_not_holds_two, fun hmem => ?_⟩
    exact (mem_removeFromQueue.1 hmem).2 hmentions

end LfgQueue

end MistyWorld
