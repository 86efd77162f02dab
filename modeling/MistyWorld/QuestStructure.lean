import MistyWorld.QuestRewards

/-!
# The structure of the quest log

The log is kept twice : in numbered slots and in the status map. `LogLaws` says how the two
should agree and which quests exclude each other. Every path but one asks `CanTakeQuest` before
`AddQuest`; `HandleQuestConfirmAccept` asks only for a free slot, so that a shared quest can
enter a log that has it already (`confirmAccept_twice`). Where the confirmed quests may enter
(`MayEnter`), every run keeps the laws (`quest_run_logLaws`).

`Structured` is the invariant. It speaks of the active quests, those with an entry in the status
map : a quest that completes by itself has an entry without ever being in a slot. `Follows`
says what the requests and the checks do to the slots and to the quests that are taken.
-/

open Option Function List Machine

namespace MistyWorld

/-- The table `mExclusiveQuestGroups` lists the quests of each group. -/
def QuestEnv.Loaded (env : QuestEnv) : Prop :=
  ∀ i q, env.template i = some q → q.exclusiveGroup ≠ 0 →
    i ∈ env.exclusiveQuestGroups q.exclusiveGroup

/-- The templates with the table that the loader fills from them. -/
structure LoadedQuests extends QuestEnv where
  loaded : toQuestEnv.Loaded

/-- Two non-repeatable quests of one positive exclusive group. -/
structure Quest.Rivals (p q : Quest) : Prop where
  left : p.repeatable = false
  right : q.repeatable = false
  group : p.exclusiveGroup = q.exclusiveGroup
  pos : 0 < p.exclusiveGroup
  ne : p.id ≠ q.id

variable {q : Quest}

theorem Quest.Rivals.symm {p : Quest} (h : p.Rivals q) : q.Rivals p :=
  ⟨h.right, h.left, h.group.symm, h.group ▸ h.pos, h.ne.symm⟩

namespace QuestBook

/-! ## The laws of the log -/

/-- The quest is in the log or rewarded. -/
def Had (b : QuestBook) (questId : ℕ) : Prop :=
  b.InLog questId ∨ questId ∈ b.rewardedQuests

/-- The laws of the log. Rewarded quests stay so : a rewarded quest that is not in the log has
not entered it. -/
structure LogLaws (env : QuestEnv) (b : QuestBook) : Prop where
  slot_unique : ∀ i j, b.slots i ≠ 0 → b.slots i = b.slots j → i = j
  entry : ∀ i, b.slots i ≠ 0 → (b.questStatus (b.slots i)).isSome
  not_rewarded : ∀ q, env.template q.id = some q → q.repeatable = false → b.InLog q.id →
    q.id ∉ b.rewardedQuests
  exclusive : ∀ p q, env.template p.id = some p → env.template q.id = some q → p.Rivals q →
    ¬(b.Had p.id ∧ b.Had q.id)

/-! ## The invariant -/

/-- The quest has an entry in `m_QuestStatus`. -/
def Active (b : QuestBook) (questId : ℕ) : Prop :=
  questId ≠ 0 ∧ (b.questStatus questId).isSome

/-- The quest is active or rewarded. -/
def Taken (b : QuestBook) (questId : ℕ) : Prop :=
  b.Active questId ∨ questId ∈ b.rewardedQuests

/-- No quest that excludes `q` is taken. -/
def Alone (env : QuestEnv) (b : QuestBook) (q : Quest) : Prop :=
  ∀ n, env.template n.id = some n → q.Rivals n → ¬b.Taken n.id

/-- The invariant of the log. -/
structure Structured (env : QuestEnv) (b : QuestBook) : Prop where
  slot_unique : ∀ i j, b.slots i ≠ 0 → b.slots i = b.slots j → i = j
  slot_active : ∀ i, b.slots i ≠ 0 → b.Active (b.slots i)
  status : ∀ x d, b.questStatus x = some d → d.status ≠ .none
  not_rewarded : ∀ q, env.template q.id = some q → q.repeatable = false → b.Active q.id →
    q.id ∉ b.rewardedQuests
  alone : ∀ q, env.template q.id = some q → b.Taken q.id → Alone env b q

/-- The quest may enter the log. -/
structure MayEnter (env : QuestEnv) (b : QuestBook) (q : Quest) : Prop where
  absent : ¬b.InLog q.id
  not_rewarded : q.id ≠ 0 → q.repeatable = false → q.id ∉ b.rewardedQuests
  alone : Alone env b q

/-- From `b` to `b'` no slot is filled, only the quest `x`, if there is one, may be newly taken,
and a quest outside the log keeps its entry. -/
structure Follows (env : QuestEnv) (x : Option ℕ) (b b' : QuestBook) : Prop where
  structured : Structured env b'
  slots : ∀ i, b'.slots i = b.slots i ∨ b'.slots i = 0
  taken : ∀ i, b.Taken i → b'.Taken i
  taken_of : ∀ i, b'.Taken i → b.Taken i ∨ x = some i
  entry : ∀ i, x ≠ some i → ¬b.InLog i → (b.questStatus i).isSome → (b'.questStatus i).isSome

variable {env : QuestEnv} {b b' b₁ : QuestBook} {x : Option ℕ} {i j : ℕ} {d : QuestStatusData}

theorem InLog.active (h : b.InLog i) (hb : Structured env b) : b.Active i := by
  obtain ⟨h0, j, rfl⟩ := h
  exact hb.slot_active j h0

theorem InLog.entry (h : b.InLog i) (hb : Structured env b) : (b.questStatus i).isSome :=
  (h.active hb).2

theorem InLog.taken (h : b.InLog i) (hb : Structured env b) : b.Taken i :=
  .inl (h.active hb)

/-- A book with no quests satisfies the invariant. -/
theorem structured_init : Structured env {} where
  slot_unique := fun _ _ h => absurd rfl h
  slot_active := fun _ h => absurd rfl h
  status := fun _ _ h => nomatch h
  not_rewarded := fun _ _ _ _ h => nomatch h
  alone := fun _ _ h => by
    rcases h with ⟨-, h⟩ | h <;> cases h

theorem mayEnter_init (q : Quest) : MayEnter env {} q where
  absent := fun ⟨h0, _, h⟩ => h0 h.symm
  not_rewarded := fun _ _ h => nomatch h
  alone := fun _ _ _ h => by
    rcases h with ⟨-, h⟩ | h <;> cases h

section

variable (hb : Structured env b)
include hb

theorem Structured.had_taken (h : b.Had i) : b.Taken i :=
  h.imp (fun hin => hin.active hb) id

theorem Structured.logLaws : LogLaws env b where
  slot_unique := hb.slot_unique
  entry := fun i hi => (hb.slot_active i hi).2
  not_rewarded := fun q hq hrep hin => hb.not_rewarded q hq hrep (hin.active hb)
  exclusive := fun p q hp hq hpq h =>
    hb.alone p hp (hb.had_taken h.1) q hq hpq (hb.had_taken h.2)

theorem Structured.data_status (h : (b.questStatus i).isSome) : (b.data i).status ≠ .none := by
  obtain ⟨d, hd⟩ := isSome_iff_exists.1 h
  rw [data, hd]
  exact hb.status i d hd

theorem Follows.refl : Follows env x b b where
  structured := hb
  slots := fun _ => .inl rfl
  taken := fun _ h => h
  taken_of := fun _ h => .inl h
  entry := fun _ _ _ h => h

end

theorem Follows.inLog (h : Follows env x b b') (hi : b'.InLog i) : b.InLog i := by
  obtain ⟨h0, j, rfl⟩ := hi
  rcases h.slots j with hj | hj
  · exact ⟨h0, j, hj.symm⟩
  · exact absurd hj h0

theorem Follows.trans (h : Follows env x b b₁) (h' : Follows env x b₁ b') :
    Follows env x b b' where
  structured := h'.structured
  slots := fun i => by
    rcases h'.slots i with hi | hi
    · rw [hi]
      exact h.slots i
    · exact .inr hi
  taken := fun i hi => h'.taken i (h.taken i hi)
  taken_of := fun i hi => (h'.taken_of i hi).elim (h.taken_of i) .inr
  entry := fun i hx hin hi => h'.entry i hx (fun hin' => hin (h.inLog hin')) (h.entry i hx hin hi)

/-- A quest that was taken is not newly taken. -/
theorem Follows.of_inLog (h : Follows env (some i) b b') (hb : Structured env b) (hi : b.InLog i) :
    Follows env none b b' where
  structured := h.structured
  slots := h.slots
  taken := h.taken
  taken_of := fun j hj => by
    rcases h.taken_of j hj with hj' | hj'
    · exact .inl hj'
    · obtain rfl := some.inj hj'
      exact .inl (hi.taken hb)
  entry := fun j _ hin hj => by
    refine h.entry j (fun hij => hin ?_) hin hj
    exact some.inj hij ▸ hi

theorem Follows.weaken (h : Follows env none b b') : Follows env x b b' where
  structured := h.structured
  slots := h.slots
  taken := h.taken
  taken_of := fun i hi => (h.taken_of i hi).elim .inl (nofun)
  entry := fun i _ hin hi => h.entry i (nofun) hin hi

theorem Alone.of_taken (h : Alone env b q) (htaken : ∀ i, b'.Taken i → b.Taken i ∨ i = q.id) :
    Alone env b' q := by
  intro n hn hqn hb'
  rcases htaken n.id hb' with hb | hid
  · exact h n hn hqn hb
  · exact hqn.ne hid.symm

theorem Follows.alone (h : Follows env none b b') (hq : Alone env b q) : Alone env b' q :=
  hq.of_taken fun i hi => (h.taken_of i hi).imp id (nofun)

/-- When `q`, which nothing excludes, is newly taken, the taken quests still exclude no other. -/
theorem Structured.alone_of_taken (hb : Structured env b) (hq : env.template q.id = some q)
    (halone : Alone env b q) (htaken : ∀ i, b'.Taken i → b.Taken i ∨ i = q.id) :
    ∀ p, env.template p.id = some p → b'.Taken p.id → Alone env b' p := by
  intro p hp hp' n hn hpn hn'
  have hsame : ∀ {r : Quest}, env.template r.id = some r → r.id = q.id → r = q := by
    intro r hr hid
    rw [hid, hq] at hr
    exact (some.inj hr).symm
  rcases htaken p.id hp' with hpt | hpq
  · rcases htaken n.id hn' with hnt | hnq
    · exact hb.alone p hp hpt n hn hpn hnt
    · obtain rfl := hsame hn hnq
      exact halone p hp hpn.symm hpt
  · obtain rfl := hsame hp hpq
    exact halone.of_taken htaken n hn hpn hn'

/-! ## Writing -/

section

variable (hb : Structured env b)
include hb

/-- Slots may be freed and entries go, as long as the quests of the slots keep theirs. -/
theorem Structured.of_le (hslots : ∀ i, b'.slots i = b.slots i ∨ b'.slots i = 0)
    (hactive : ∀ i, b'.slots i ≠ 0 → b'.Active (b'.slots i)) (hle : ∀ i, b'.Active i → b.Active i)
    (hstatus : ∀ i d, b'.questStatus i = some d → d.status ≠ .none)
    (hrewarded : ∀ i, i ∈ b'.rewardedQuests → i ∈ b.rewardedQuests) : Structured env b' where
  slot_unique := fun i j hi hij => by
    have hslot : ∀ k, b'.slots k ≠ 0 → b'.slots k = b.slots k := fun k hk =>
      (hslots k).resolve_right hk
    have hij' : b.slots i = b.slots j := by
      rw [← hslot i hi, ← hslot j (hij ▸ hi), hij]
    exact hb.slot_unique i j (hslot i hi ▸ hi) hij'
  slot_active := hactive
  status := hstatus
  not_rewarded := fun q hq hrep hact hmem =>
    hb.not_rewarded q hq hrep (hle _ hact) (hrewarded _ hmem)
  alone := fun q hq hq' => by
    have htaken : ∀ i, b'.Taken i → b.Taken i := fun i hi => hi.imp (hle i) (hrewarded i)
    exact (hb.alone q hq (htaken _ hq')).of_taken fun i hi => .inl (htaken i hi)

/-- Freeing slots and writing what the laws do not read. -/
theorem Follows.of_eq (hslots : ∀ i, b'.slots i = b.slots i ∨ b'.slots i = 0)
    (hstatus : b'.questStatus = b.questStatus) (hrewarded : b'.rewardedQuests = b.rewardedQuests) :
    Follows env x b b' := by
  have hactive : ∀ i, b'.Active i ↔ b.Active i := fun i => by rw [Active, hstatus, Active]
  have htaken : ∀ i, b'.Taken i ↔ b.Taken i := fun i => by
    rw [Taken, hactive, hrewarded, Taken]
  refine ⟨hb.of_le hslots (fun i hi => ?_) (fun i => (hactive i).1) ?_ ?_, hslots,
    fun i => (htaken i).2, fun i hi => .inl ((htaken i).1 hi), fun i _ _ hi => by rwa [hstatus]⟩
  · have hslot := (hslots i).resolve_right hi
    rw [hactive, hslot]
    exact hb.slot_active i (hslot ▸ hi)
  · rw [hstatus]
    exact hb.status
  · rw [hrewarded]
    exact fun _ h => h

theorem Follows.outside (o : Outside) : Follows env x b { b with outside := o } :=
  .of_eq hb (fun _ => .inl rfl) rfl rfl

theorem Follows.record (deed : Deed) : Follows env x b (b.record deed) :=
  .of_eq hb (fun _ => .inl rfl) rfl rfl

theorem Follows.removeTimedQuest (i : ℕ) : Follows env x b (b.removeTimedQuest i) :=
  .of_eq hb (fun _ => .inl rfl) rfl rfl

end

theorem slots_setQuestSlot (b : QuestBook) (slot : Fin maxQuestLogSize) (i : ℕ)
    (j : Fin maxQuestLogSize) :
    (b.setQuestSlot slot i).slots j = if j = slot then i else b.slots j :=
  update_apply _ _ _ _

theorem slots_free (b : QuestBook) (slot j : Fin maxQuestLogSize) :
    (b.setQuestSlot slot 0).slots j = b.slots j ∨ (b.setQuestSlot slot 0).slots j = 0 := by
  rw [slots_setQuestSlot]
  split_ifs
  · exact .inr rfl
  · exact .inl rfl

theorem Follows.freeSlot (hb : Structured env b) (slot : Fin maxQuestLogSize) :
    Follows env x b (b.setQuestSlot slot 0) :=
  .of_eq hb (slots_free b slot) rfl rfl

/-- The slot of a quest is freed. -/
theorem Follows.clearQuestSlot (hb : Structured env b) (i : ℕ) :
    Follows env x b (b.clearQuestSlot i) := by
  unfold QuestBook.clearQuestSlot
  split
  · exact .freeSlot hb _
  · exact .refl hb

theorem active_setData : (b.setData i d).Active j ↔ b.Active j ∨ j = i ∧ i ≠ 0 := by
  by_cases hj : j = i
  · subst hj
    simp only [Active, setData, update_self, isSome_some]
    tauto
  · simp [Active, setData, hj]

theorem entry_setData (h : (b.questStatus j).isSome) : ((b.setData i d).questStatus j).isSome := by
  by_cases hj : j = i
  · subst hj
    simp [setData]
  · simpa [setData, hj] using h

theorem taken_setData : (b.setData i d).Taken j ↔ b.Taken j ∨ j = i ∧ i ≠ 0 := by
  rw [Taken, active_setData, Taken, or_right_comm]
  exact Iff.rfl

section

variable (hb : Structured env b)
include hb

theorem status_setData (hd : d.status ≠ .none) :
    ∀ j e, (b.setData i d).questStatus j = some e → e.status ≠ .none := by
  intro j e he
  by_cases hj : j = i
  · subst hj
    simp only [setData, update_self, some.injEq] at he
    exact he ▸ hd
  · simp only [setData, update_of_ne hj] at he
    exact hb.status j e he

/-- Writing over the entry of a quest. -/
theorem Follows.setData (hi : (b.questStatus i).isSome) (hd : d.status ≠ .none) :
    Follows env x b (b.setData i d) := by
  have hactive : ∀ j, (b.setData i d).Active j ↔ b.Active j := fun j => by
    rw [active_setData]
    exact or_iff_left_of_imp fun h => h.1 ▸ ⟨h.2, hi⟩
  have htaken : ∀ j, (b.setData i d).Taken j ↔ b.Taken j := fun j => by
    rw [Taken, hactive]
    exact Iff.rfl
  refine ⟨hb.of_le (fun _ => .inl rfl) (fun j hj => ?_) (fun j => (hactive j).1)
    (status_setData hb hd) (fun _ h => h), fun _ => .inl rfl, fun j => (htaken j).2,
    fun j hj => .inl ((htaken j).1 hj), fun j _ _ => entry_setData⟩
  rw [hactive]
  exact hb.slot_active j hj

theorem Follows.touch (hi : (b.questStatus i).isSome) : Follows env x b (b.touch i) :=
  .setData hb hi (hb.data_status hi)

/-- Writing over the entry of a quest and leaving its status. -/
theorem Follows.touch_setData (hi : (b.questStatus i).isSome) (hd : d.status = (b.data i).status) :
    Follows env x b ((b.touch i).setData i d) := by
  have htouch : Follows env x b (b.touch i) := .touch hb hi
  exact htouch.trans (.setData htouch.structured (entry_setData hi) (hd ▸ hb.data_status hi))

/-- Making active a quest that may be taken. -/
theorem Follows.activate (hq : env.template q.id = some q)
    (hrewarded : q.id ≠ 0 → q.repeatable = false → q.id ∉ b.rewardedQuests) (halone : Alone env b q)
    (hd : d.status ≠ .none) : Follows env (some q.id) b (b.setData q.id d) := by
  have htaken : ∀ j, (b.setData q.id d).Taken j → b.Taken j ∨ j = q.id := fun j hj =>
    (taken_setData.1 hj).imp id And.left
  refine ⟨⟨hb.slot_unique, fun j hj => active_setData.2 (.inl (hb.slot_active j hj)),
    status_setData hb hd, fun p hp hrep hact => ?_, hb.alone_of_taken hq halone htaken⟩,
    fun _ => .inl rfl, fun j hj => taken_setData.2 (.inl hj),
    fun j hj => (htaken j hj).imp id fun h => by rw [h], fun j _ _ => entry_setData⟩
  rcases active_setData.1 hact with hact | ⟨hid, h0⟩
  · exact hb.not_rewarded p hp hrep hact
  · obtain rfl : p = q := by
      rw [hid, hq] at hp
      exact (some.inj hp).symm
    exact hrewarded h0 hrep

theorem Follows.setQuestStatus {status : QuestStatus} (hi : (b.questStatus i).isSome)
    (hs : status ≠ .none) : Follows env x b (b.setQuestStatus env i status) := by
  unfold QuestBook.setQuestStatus
  split
  · exact .setData hb hi hs
  · exact .refl hb

end

/-! ## What a reward does -/

theorem slots_setPeriodStatus (q : Quest) (i : Fin maxQuestLogSize) :
    (b.setPeriodStatus env q).slots i = b.slots i := by
  unfold setPeriodStatus setDailyQuestStatus setSeasonalQuestStatus
  split_ifs
  · split
    · split_ifs <;> rfl
    · rfl
  · rfl
  · rfl
  · split <;> rfl
  · rfl

/-- After its slot is freed no slot holds the quest. -/
theorem not_inLog_clearQuestSlot (hb : Structured env b) (i : ℕ) :
    ¬(b.clearQuestSlot i).InLog i := by
  rintro ⟨h0, j, hj⟩
  unfold clearQuestSlot at hj
  cases hfind : b.findQuestSlot i with
  | none =>
    rw [hfind] at hj
    have hne := List.find?_eq_none.1 hfind j (mem_finRange j)
    exact hne (by simpa using hj)
  | some slot =>
    have hslot : b.slots slot = i := by simpa using List.find?_some hfind
    simp only [hfind, setQuestSlot, update_apply] at hj
    split_ifs at hj with hjs
    · exact h0 hj.symm
    · exact hjs (hb.slot_unique j slot (hj ▸ h0) (hj.trans hslot.symm))

theorem active_removeActiveQuest : (b.removeActiveQuest i).Active j ↔ b.Active j ∧ j ≠ i := by
  by_cases hj : j = i
  · subst hj
    simp [Active, removeActiveQuest]
  · simp [Active, removeActiveQuest, hj]

theorem active_markRewarded : (b.markRewarded i).Active j ↔ b.Active j ∧ j ≠ i :=
  active_removeActiveQuest (b := b)

theorem status_removeActiveQuest (hb : Structured env b) :
    ∀ j d, (b.removeActiveQuest i).questStatus j = some d → d.status ≠ .none := by
  intro j d hd
  by_cases hj : j = i
  · simp [removeActiveQuest, hj] at hd
  · exact hb.status j d (by simpa [removeActiveQuest, hj] using hd)

theorem taken_markRewarded : (b.markRewarded i).Taken j ↔ b.Taken j ∨ j = i := by
  rw [Taken, active_markRewarded, Taken]
  have hmem : j ∈ (b.markRewarded i).rewardedQuests ↔ j = i ∨ j ∈ b.rewardedQuests :=
    mem_insert_iff
  rw [hmem]
  by_cases hj : j = i <;> simp [hj]

/-- A quest outside the log that nothing excludes is put among the rewarded ones. -/
theorem Follows.markRewarded (hb : Structured env b) (hq : env.template q.id = some q)
    (halone : Alone env b q) (hout : ¬b.InLog q.id) :
    Follows env (some q.id) b (b.markRewarded q.id) := by
  refine ⟨⟨hb.slot_unique, fun j hj => ?_, status_removeActiveQuest hb,
    fun p hp hrep hact hmem => ?_,
    hb.alone_of_taken hq halone fun j => taken_markRewarded.1⟩, fun _ => .inl rfl,
    fun j hj => taken_markRewarded.2 (.inl hj), fun j hj => ?_, fun j hne _ hj => ?_⟩
  · refine active_markRewarded.2 ⟨hb.slot_active j hj, fun hid => hout ?_⟩
    exact ⟨hid ▸ hj, j, hid⟩
  · obtain ⟨hact, hne⟩ := active_markRewarded.1 hact
    exact hb.not_rewarded p hp hrep hact ((mem_insert_iff.1 hmem).resolve_left hne)
  · exact (taken_markRewarded.1 hj).imp id fun h => by rw [h]
  · have hid : j ≠ q.id := fun hid => hne (by rw [hid])
    simpa [QuestBook.markRewarded, removeActiveQuest, hid] using hj

/-! ## What the server asks -/

theorem Structured.getQuestStatus (hb : Structured env b) (hi : b.Active i) :
    b.getQuestStatus env i ≠ .none := by
  obtain ⟨d, hd⟩ := isSome_iff_exists.1 hi.2
  rw [QuestBook.getQuestStatus, if_neg hi.1, hd]
  exact hb.status i d hd

/-- A quest without a status that is not repeatable is not rewarded. -/
theorem not_mem_rewardedQuests (hb : Structured env b) (hq : env.template q.id = some q)
    (h0 : q.id ≠ 0) (h : b.getQuestStatus env q.id = .none) (hrep : q.repeatable = false) :
    q.id ∉ b.rewardedQuests := by
  intro hmem
  rw [QuestBook.getQuestStatus, if_neg h0] at h
  cases hd : b.questStatus q.id with
  | some d =>
    rw [hd] at h
    exact hb.status q.id d hd h
  | none => simp [hd, hq, hrep, hmem] at h

/-- What the test of the exclusive group says, once the table of the groups is filled. -/
theorem satisfyQuestExclusiveGroup_alone (hload : env.Loaded) (hb : Structured env b)
    (h : b.satisfyQuestExclusiveGroup env q = true) : Alone env b q := by
  intro n hn hqn htaken
  have hpos := hqn.pos
  have hgroup := hqn.group
  have hmem : n.id ∈ env.exclusiveQuestGroups q.exclusiveGroup :=
    hgroup ▸ hload n.id n hn (by omega)
  rw [satisfyQuestExclusiveGroup, if_neg (by omega)] at h
  have hn' := all_eq_true.1 h n.id hmem
  rw [if_neg hqn.ne.symm, hn] at hn'
  simp only [Bool.and_eq_true, hqn.left, Bool.false_and, Bool.false_or, decide_eq_true_eq] at hn'
  rcases htaken with hact | hrew
  · exact hb.getQuestStatus hact hn'.1.2
  · exact hn'.2 hrew

/-- A quest that can be taken may enter the log. -/
theorem canTakeQuest_mayEnter (hload : env.Loaded) (hb : Structured env b)
    (hq : env.template q.id = some q) (h : b.canTakeQuest env q = true) : MayEnter env b q := by
  simp only [canTakeQuest, Bool.and_eq_true, satisfyQuestStatus, decide_eq_true_eq] at h
  obtain ⟨⟨⟨⟨⟨⟨⟨⟨⟨⟨⟨⟨⟨-, hstatus⟩, hexcl⟩, -⟩, -⟩, -⟩, -⟩, -⟩, -⟩, -⟩, -⟩, -⟩, -⟩, -⟩ := h
  exact ⟨fun hin => hb.getQuestStatus (hin.active hb) hstatus,
    fun h0 => not_mem_rewardedQuests hb hq h0 hstatus,
    satisfyQuestExclusiveGroup_alone hload hb hexcl⟩

/-! ## Completing and rewarding -/

/-- A reward of a quest that nothing excludes follows the laws. -/
def Settles (env : QuestEnv) (reward : Quest → QuestBook → Option QuestBook) : Prop :=
  ∀ q b b', env.template q.id = some q → Structured env b → Alone env b q →
    reward q b = some b' → Follows env (some q.id) b b'

section Reward

variable {reward : Quest → QuestBook → Option QuestBook} (hload : env.Loaded)
  (hreward : Settles env reward)
include hload hreward

theorem tryComplete_follows (hb : Structured env b) (h : b.tryComplete env reward i = some b') :
    Follows env (some i) b b' := by
  unfold tryComplete at h
  split_ifs at h with hcan
  swap
  · exact some.inj h ▸ .refl hb
  unfold completeQuest at h
  split_ifs at h with h0
  · exact some.inj h ▸ .refl hb
  split at h
  · rename_i q hq
    obtain rfl := env.template_id hq
    obtain ⟨hrewarded, hcases⟩ := canCompleteQuest_cases hq hcan
    have halone : Alone env b q := by
      rcases hcases with ⟨-, htake⟩ | ⟨d, hd, -⟩
      · exact (canTakeQuest_mayEnter hload hb hq htake).alone
      · exact hb.alone q hq (.inl ⟨h0, by rw [hd]; rfl⟩)
    rw [setQuestStatus_self hq] at h
    have hset : Follows env (some q.id) b
        (b.setData q.id { b.data q.id with status := .complete }) :=
      .activate hb hq (fun _ => hrewarded) halone (nofun)
    have halone' := hset.structured.alone q hq (taken_setData.2 (.inr ⟨rfl, h0⟩))
    split_ifs at h
    · exact hset.trans (hreward q _ _ hq hset.structured halone' h)
    · exact some.inj h ▸ hset
  · exact some.inj h ▸ .refl hb

theorem tryComplete_inLog (hb : Structured env b) (hi : b.InLog i)
    (h : b.tryComplete env reward i = some b') : Follows env none b b' :=
  (tryComplete_follows hload hreward hb h).of_inLog hb hi

omit hload hreward in
theorem Follows.incompleteQuest (hb : Structured env b) (hi : (b.questStatus i).isSome) :
    Follows env x b (b.incompleteQuest env i) := by
  unfold QuestBook.incompleteQuest
  split_ifs
  · exact .refl hb
  · exact .setQuestStatus hb hi (nofun)

omit hload hreward in
theorem forSlots_follows {body : ℕ → QuestBook → Option (QuestBook × Bool)}
    (hbody : ∀ {i b b' stop}, b.InLog i → Structured env b → body i b = some (b', stop) →
      Follows env none b b')
    (hb : Structured env b) (h : b.forSlots body = some b') : Follows env none b b' :=
  eachSlot_rel (R := fun b b' => Structured env b → Follows env none b b')
    (fun _ hb => .refl hb) (fun h1 h2 hb => (h1 hb).trans (h2 (h1 hb).structured))
    (fun hin hrun hb => hbody hin hb hrun) _ h hb

/-- An entry is written with its status and its quest completed if that is possible. -/
theorem touch_tryComplete (hb : Structured env b) (hin : b.InLog i)
    (hd : d.status = (b.data i).status)
    (h : ((b.touch i).setData i d).tryComplete env reward i = some b') : Follows env none b b' := by
  have hset : Follows env none b ((b.touch i).setData i d) :=
    .touch_setData hb (hin.entry hb) hd
  have hin' : ((b.touch i).setData i d).InLog i := hin
  exact hset.trans (tryComplete_inLog hload hreward hset.structured hin' h)

theorem follows_rule :
    CheckRule env reward fun b b' => Structured env b → Follows env none b b' where
  refl _ hb := .refl hb
  trans h1 h2 hb := (h1 hb).trans (h2 (h1 hb).structured)
  count _ hin hb := .setData hb (hin.entry hb) (hb.data_status (hin.entry hb))
  complete hin _ _ h hb := tryComplete_inLog hload hreward hb hin h
  incomplete hin _ _ _ hb := .incompleteQuest hb (hin.entry hb)

theorem itemAddedQuestCheck_follows {entry count : ℕ} (hb : Structured env b)
    (h : b.itemAddedQuestCheck env reward entry count = some b') : Follows env none b b' :=
  (follows_rule hload hreward).itemAddedQuestCheck h hb

/-- A check takes no quest that is not taken. -/
theorem check_follows {c : Check} (hb : Structured env b) (h : b.check env reward c = some b') :
    Follows env none b b' := by
  have hR := follows_rule hload hreward
  refine hR.check (fun entry count hc => ?_) h hb
  subst hc
  exact hR.itemRemovedQuestCheck (fun hin _ _ hb => .incompleteQuest hb (hin.entry hb)) h

theorem runEffects_follows : ∀ (es : List RaisedCheck) {b b' : QuestBook}, Structured env b →
    runEffects env reward es b = some b' → Follows env none b b'
  | [], b, b', hb, h => some.inj h ▸ .refl hb
  | e :: es, b, b', hb, h => by
    rw [runEffects] at h
    split at h
    · cases h
    · rename_i hrun
      have hout : Follows env none b { b with outside := e.outside } := .outside hb e.outside
      have hcheck := check_follows hload hreward hout.structured hrun
      exact (hout.trans hcheck).trans (runEffects_follows es hcheck.structured h)

/-- The body of a reward follows the laws, if the rewards it brings about do. -/
theorem rewardBody_settles : Settles env (rewardBody env reward) := by
  intro q b b' hq hb halone h
  simp only [rewardBody, bind_eq_bind, bind_eq_some_iff, Option.pure_def,
    some.injEq] at h
  obtain ⟨b₁, h1, b2, h2, b3, h3, rfl⟩ := h
  have hbegin : Follows env none b (b.record (.rewarded q.id)) := .record hb _
  have hf1 := hbegin.trans (runEffects_follows hload hreward _ hbegin.structured h1)
  have hf1' := hf1.trans (.removeTimedQuest hf1.structured q.id)
  have hf2 := hf1'.trans (runEffects_follows hload hreward _ hf1'.structured h2)
  have hf2' := hf2.trans (.clearQuestSlot hf2.structured q.id)
  have hpaid := runEffects_follows hload hreward _ hf2'.structured h3
  have hout : ¬b3.InLog q.id := fun hin =>
    not_inLog_clearQuestSlot hf2.structured q.id (hpaid.inLog hin)
  obtain ⟨hstatus, hrewarded, -⟩ := setPeriodStatus_frame env b3 q
  have hf3 := (hf2'.trans hpaid).trans
    (.of_eq hpaid.structured (fun i => .inl (slots_setPeriodStatus q i)) hstatus hrewarded)
  refine hf3.weaken.trans (.markRewarded hf3.structured hq (hf3.alone halone) fun hin => hout ?_)
  obtain ⟨h0, i, hi⟩ := hin
  exact ⟨h0, i, slots_setPeriodStatus q i ▸ hi⟩

end Reward

/-- Every reward follows the laws. -/
theorem rewardQuest_settles (hload : env.Loaded) : ∀ depth, Settles env (rewardQuest env depth)
  | 0 => fun _ _ _ _ _ _ h => nomatch h
  | depth + 1 => rewardBody_settles hload (rewardQuest_settles hload depth)

/-! ## Requests -/

/-- The requests of a run : all but the failures and timers, which scripts and the clock bring,
and the talks for which a tracking quest names the creature twice, where the source goes on
with the entry it has erased. -/
def Request.Regular (env : QuestEnv) : Request → Prop
  | .failQuest _ _ => False
  | .updateTimer _ _ _ => False
  | .talkedToCreature entry => ∀ q, env.template q.id = some q → q.tracking = true →
      ∀ i j, 0 < entry → q.requiredNpcOrGo i = entry → q.requiredNpcOrGo j = entry → i = j
  | _ => True

/-- An invitation that is accepted is one to a quest that may enter the log. -/
def Invited (env : QuestEnv) (s : Option QuestBook) (a : Outside × Request) : Prop :=
  ∀ b, s = some b → ∀ q invited, a.2 = .confirmAccept q.id invited →
    env.template q.id = some q → q.partyAccept = true → invited = true →
    { b with outside := a.1 }.canAddQuest q = true → MayEnter env { b with outside := a.1 } q

section Serve

variable {reward : Quest → QuestBook → Option QuestBook} (hload : env.Loaded)
  (hreward : Settles env reward) {giverTimer : Option ℕ} {reachable : Bool}
include hload hreward

/-! ### Accepting -/

omit hload hreward in
theorem Follows.adjustQuestReqItemCount (hb : Structured env b) (hi : (b.questStatus q.id).isSome) :
    Follows env x b (b.adjustQuestReqItemCount q) := by
  unfold QuestBook.adjustQuestReqItemCount
  split_ifs
  · exact .setData hb hi (hb.data_status hi)
  · exact .refl hb

omit hload hreward in
theorem Follows.startTimer (hb : Structured env b) (hi : (b.questStatus q.id).isSome) :
    Follows env x b (b.startTimer q giverTimer) := by
  unfold QuestBook.startTimer
  split_ifs
  · have hset : Follows env x b (b.setData q.id { b.data q.id with
        timer := Word.toU32 ((giverTimer.map (· / 1000)).getD q.limitTime * 1000) }) :=
      .setData hb hi (hb.data_status hi)
    exact hset.trans (.of_eq hset.structured (fun _ => .inl rfl) rfl rfl)
  · exact .setData hb hi (hb.data_status hi)

theorem giveQuestSourceItem_follows (hb : Structured env b)
    (h : b.giveQuestSourceItem env reward q = some b') : Follows env none b b' := by
  unfold giveQuestSourceItem at h
  dsimp only at h
  generalize (if q.srcItemCount = 0 then 1 else q.srcItemCount) = count at h
  split_ifs at h
  · exact some.inj h ▸ .refl hb
  · exact itemAddedQuestCheck_follows hload hreward hb h
  · exact some.inj h ▸ .refl hb

omit hload hreward in
/-- An active quest that is in no slot is put in a free one. -/
theorem Structured.setQuestSlot {slot : Fin maxQuestLogSize} (hb : Structured env b)
    (hi : i ≠ 0 → b.Active i) (hout : ¬b.InLog i) : Structured env (b.setQuestSlot slot i) := by
  have hslots := slots_setQuestSlot b slot i
  refine ⟨fun j k hj hjk => ?_, fun j hj => ?_, hb.status, hb.not_rewarded, hb.alone⟩
  · rw [hslots] at hj
    rw [hslots, hslots] at hjk
    split_ifs at hj hjk with h1 h2 h2
    · rw [h1, h2]
    · exact absurd ⟨hj, k, hjk.symm⟩ hout
    · exact absurd ⟨hjk ▸ hj, j, hjk⟩ hout
    · exact hb.slot_unique j k hj hjk
  · rw [hslots] at hj ⊢
    split_ifs at hj ⊢
    · exact hi hj
    · exact hb.slot_active j hj

/-- Accepting a quest that may enter keeps the invariant. -/
theorem addQuest_structured (hb : Structured env b) (hq : env.template q.id = some q)
    (hmay : MayEnter env b q) (h : b.addQuest env reward q giverTimer = some b') :
    Structured env b' := by
  unfold addQuest at h
  split at h
  · exact some.inj h ▸ hb
  · rename_i slot hslot
    simp only [bind_eq_bind, bind_eq_some_iff, Option.pure_def,
      some.injEq] at h
    obtain ⟨b₁, hgive, rfl⟩ := h
    have hrecord : Follows env (some q.id) b (b.record (.accepted q.id)) := .record hb _
    have hentry := hrecord.trans
      (.activate (d := acceptedData q ((b.record (.accepted q.id)).data q.id))
        hrecord.structured hq hmay.not_rewarded hmay.alone (nofun))
    have hgive' := giveQuestSourceItem_follows hload hreward hentry.structured hgive
    have hout : ¬b₁.InLog q.id := fun hin => hmay.absent (hentry.inLog (hgive'.inLog hin))
    have hsome : (b₁.questStatus q.id).isSome := by
      refine hgive'.entry q.id (nofun) (fun hin => hmay.absent (hentry.inLog hin)) ?_
      simp [setData]
    have hadjust : Follows env none b₁ (b₁.adjustQuestReqItemCount q) :=
      .adjustQuestReqItemCount hgive'.structured hsome
    have hsome' := hadjust.entry q.id (nofun) hout hsome
    have htimer : Follows env none b₁ ((b₁.adjustQuestReqItemCount q).startTimer q giverTimer) :=
      hadjust.trans (.startTimer hadjust.structured hsome')
    have hsome'' := htimer.entry q.id (nofun) hout hsome
    exact htimer.structured.setQuestSlot (fun h0 => ⟨h0, hsome''⟩) fun hin =>
      hout (htimer.inLog hin)

theorem addAndComplete_structured (hb : Structured env b) (hq : env.template q.id = some q)
    (hmay : MayEnter env b q) (h : b.addAndComplete env reward q giverTimer = some b') :
    Structured env b' := by
  unfold addAndComplete at h
  simp only [bind_eq_bind, bind_eq_some_iff] at h
  obtain ⟨b₁, hadd, hcomplete⟩ := h
  have hb1 := addQuest_structured hload hreward hb hq hmay hadd
  exact (tryComplete_follows hload hreward hb1 hcomplete).structured

theorem MayTake.structured (hb : Structured env b) (h : MayTake env reward b b') :
    Structured env b' := by
  obtain rfl | ⟨q, giverTimer, hq, htake, h⟩ := h
  · exact hb
  · exact addAndComplete_structured hload hreward hb hq (canTakeQuest_mayEnter hload hb hq htake) h

/-- An invitation to a quest that may enter keeps the invariant. -/
theorem handleQuestConfirmAccept_structured {invited : Bool} (hb : Structured env b)
    (hmay : ∀ q, env.template q.id = some q → q.id = i → q.partyAccept = true → invited = true →
      b.canAddQuest q = true → MayEnter env b q)
    (h : b.handleQuestConfirmAccept env reward i invited = some b') : Structured env b' := by
  unfold handleQuestConfirmAccept at h
  split at h
  · rename_i q hq
    obtain rfl := env.template_id hq
    split_ifs at h with hask
    · simp only [Bool.and_eq_true] at hask
      exact addQuest_structured hload hreward hb hq
        (hmay q hq rfl hask.1.1 hask.1.2 hask.2) h
    · exact some.inj h ▸ hb
  · exact some.inj h ▸ hb

/-! ### Handing in and abandoning -/

omit hload hreward in
/-- A quest with a status is taken. -/
theorem taken_of_getQuestStatus (h : b.getQuestStatus env i ≠ .none) : b.Taken i := by
  unfold getQuestStatus at h
  split_ifs at h with h0
  · exact absurd rfl h
  cases hd : b.questStatus i with
  | some d => exact .inl ⟨h0, by rw [hd]; rfl⟩
  | none =>
    rw [hd] at h
    cases hq : env.template i with
    | none => exact absurd (by rw [hq]) h
    | some q =>
      simp only [hq] at h
      split_ifs at h with hmem
      · simp only [Bool.and_eq_true, decide_eq_true_eq] at hmem
        exact .inr hmem.2
      · exact absurd rfl h

theorem handleQuestgiverChooseReward_structured {choice : ℕ} {offered : Bool}
    (hb : Structured env b)
    (h : b.handleQuestgiverChooseReward env reward i choice reachable offered = some b') :
    Structured env b' := by
  unfold handleQuestgiverChooseReward at h
  split at h
  · exact some.inj h ▸ hb
  · rename_i q hq
    obtain rfl := env.template_id hq
    split_ifs at h with h1 h2 hasked hcan
    · exact some.inj h ▸ hb
    · exact some.inj h ▸ hb
    · exact some.inj h ▸ hb
    · simp only [bind_eq_bind, bind_eq_some_iff] at h
      obtain ⟨b₁, hrew, haccept⟩ := h
      have halone : Alone env b q := by
        by_cases hstatus : b.getQuestStatus env q.id = .none
        · have hsee : b.canSeeStartQuest env q = true := by
            by_contra hno
            exact hasked (by simp [hstatus, hno])
          simp only [canSeeStartQuest, Bool.and_eq_true] at hsee
          obtain ⟨⟨⟨⟨⟨⟨⟨⟨⟨⟨-, -⟩, hexcl⟩, -⟩, -⟩, -⟩, -⟩, -⟩, -⟩, -⟩, -⟩ := hsee
          exact satisfyQuestExclusiveGroup_alone hload hb hexcl
        · exact hb.alone q hq (taken_of_getQuestStatus hstatus)
      have hb1 := (hreward q b b₁ hq hb halone hrew).structured
      exact (autoAccept_takes haccept).structured hload hreward hb1
    · exact some.inj h ▸ hb

omit hload hreward in
/-- A quest that no other slot holds is abandoned. -/
theorem Structured.abandon {slot : Fin maxQuestLogSize} (hb : Structured env b)
    (hi : ∀ j, b.slots j = i → j = slot) :
    Structured env ((b.removeActiveQuest i).setQuestSlot slot 0) := by
  refine hb.of_le (slots_free (b.removeActiveQuest i) slot) (fun j hj => ?_)
    (fun j hj => (active_removeActiveQuest.1 hj).1) (status_removeActiveQuest hb) (fun _ h => h)
  rw [slots_setQuestSlot] at hj ⊢
  split_ifs at hj ⊢ with hjs
  · exact absurd rfl hj
  · exact active_removeActiveQuest.2 ⟨hb.slot_active j hj, fun hji => hjs (hi j hji)⟩

/-- Abandoning by slot keeps the invariant. -/
theorem handleQuestLogRemoveQuest_structured {slot : ℕ} {taken : Option (List RaisedCheck)}
    (hb : Structured env b)
    (h : b.handleQuestLogRemoveQuest env reward slot taken = some b') : Structured env b' := by
  unfold handleQuestLogRemoveQuest at h
  split_ifs at h with hslot
  swap
  · exact some.inj h ▸ hb
  dsimp only at h
  split_ifs at h with h0 htimed
  · exact some.inj h ▸ (Follows.freeSlot (x := none) hb _).structured
  all_goals
    split at h
    · exact some.inj h ▸ hb
    simp only [bind_eq_bind, bind_eq_some_iff, Option.pure_def,
      some.injEq] at h
    obtain ⟨b₁, hrun, rfl⟩ := h
    have hrun' := runEffects_follows hload hreward _ hb hrun
    have honly : ∀ j, b₁.slots j = b.slots ⟨slot, hslot⟩ → j = ⟨slot, hslot⟩ := by
      intro j hj
      have hsame := (hrun'.slots j).resolve_right (hj ▸ h0)
      exact (hb.slot_unique _ _ h0 (hsame.symm.trans hj).symm).symm
  · have htimed' : Follows env none b₁ (b₁.removeTimedQuest (b.slots ⟨slot, hslot⟩)) :=
      .removeTimedQuest hrun'.structured _
    exact htimed'.structured.abandon honly
  · exact hrun'.structured.abandon honly

omit hload hreward in
/-- Swapping two slots keeps the invariant. -/
theorem handleQuestLogSwapQuest_structured {slot1 slot2 : ℕ} (hb : Structured env b) :
    Structured env (b.handleQuestLogSwapQuest slot1 slot2) := by
  unfold handleQuestLogSwapQuest
  split_ifs with h
  swap
  · exact hb
  have hslots : ∀ j, (b.swapQuestSlot ⟨slot1, h.2.1⟩ ⟨slot2, h.2.2⟩).slots j =
      b.slots (Equiv.swap ⟨slot1, h.2.1⟩ ⟨slot2, h.2.2⟩ j) := by
    intro j
    rw [swapQuestSlot, slots_setQuestSlot, slots_setQuestSlot, Equiv.swap_apply_def]
    split_ifs <;> simp_all
  refine ⟨fun j k hj hjk => ?_, fun j hj => ?_, hb.status, hb.not_rewarded, hb.alone⟩
  · rw [hslots] at hj
    rw [hslots, hslots] at hjk
    exact Equiv.injective _ (hb.slot_unique _ _ hj hjk)
  · rw [hslots] at hj ⊢
    exact hb.slot_active _ hj

/-! ### Objective events -/

omit hload hreward in
/-- Completing a quest that is no tracking one leaves the slots. -/
theorem tryComplete_slots (htr : ∀ q, env.template i = some q → q.tracking = false)
    (h : b.tryComplete env reward i = some b') : b'.slots = b.slots := by
  unfold tryComplete completeQuest at h
  split_ifs at h
  · exact some.inj h ▸ rfl
  · split at h
    · rename_i q hq
      rw [htr q hq, if_neg Bool.false_ne_true] at h
      rw [← some.inj h, QuestBook.setQuestStatus, hq]
      rfl
    · exact some.inj h ▸ rfl
  · exact some.inj h ▸ rfl

omit hload hreward in
theorem creditObjective_slots {j : Fin questObjectivesCount} (hq : env.template q.id = some q)
    (htr : q.tracking = false) (h : b.creditObjective env reward q j = some b') :
    b'.slots = b.slots := by
  have hno : ∀ p, env.template q.id = some p → p.tracking = false := fun p hp => by
    rw [hq] at hp
    exact some.inj hp ▸ htr
  unfold creditObjective at h
  dsimp only at h
  split_ifs at h
  · exact (tryComplete_slots hno h).trans rfl
  · exact tryComplete_slots hno h

theorem creditObjective_follows {j : Fin questObjectivesCount} (hb : Structured env b)
    (hin : b.InLog q.id) (h : b.creditObjective env reward q j = some b') :
    Follows env none b b' := by
  unfold creditObjective at h
  dsimp only at h
  split_ifs at h
  · have hset : Follows env none b (b.setData q.id { b.data q.id with
        creatureOrGOCount := update (b.data q.id).creatureOrGOCount j
          (Word.toU16 ((b.data q.id).creatureOrGOCount j + 1)) }) :=
      .setData hb (hin.entry hb) (hb.data_status (hin.entry hb))
    have hcredit := hset.trans (.record hset.structured (.credited q.id j))
    exact hcredit.trans (tryComplete_inLog hload hreward hcredit.structured hin h)
  · exact tryComplete_inLog hload hreward hb hin h

theorem creditObjectives_follows (hq : env.template q.id = some q) :
    ∀ {js : List (Fin questObjectivesCount)} {b b' : QuestBook}, Structured env b →
      b.InLog q.id → (q.tracking = true → js.length ≤ 1) →
      b.creditObjectives env reward q js = some b' → Follows env none b b'
  | [], b, b', hb, _, _, h => some.inj h ▸ .refl hb
  | j :: js, b, b', hb, hin, htr, h => by
    rw [creditObjectives] at h
    split at h
    · cases h
    rename_i b₁ hrun
    have hcredit := creditObjective_follows hload hreward hb hin hrun
    cases js with
    | nil => exact some.inj h ▸ hcredit
    | cons k js =>
      have hno : q.tracking = false := by
        by_contra hyes
        simpa using htr (by simpa using hyes)
      have hin' : b₁.InLog q.id := by
        rw [InLog, creditObjective_slots hq hno hrun]
        exact hin
      exact hcredit.trans (creditObjectives_follows hq hcredit.structured hin'
        (fun hyes => by rw [hno] at hyes; cases hyes) h)

theorem creditSlots_follows {matching : Quest → List (Fin questObjectivesCount)}
    (hmatching : ∀ q, env.template q.id = some q → q.tracking = true → (matching q).length ≤ 1)
    (hb : Structured env b) (h : b.creditSlots env reward matching = some b') :
    Follows env none b b' := by
  refine forSlots_follows (fun {i b b' stop} hin hb h => ?_) hb h
  split at h
  · exact next_eq h ▸ .refl hb
  · rename_i q hq
    obtain rfl := env.template_id hq
    have htouch : Follows env none b (b.touch q.id) := .touch hb (hin.entry hb)
    have hin' : (b.touch q.id).InLog q.id := hin
    dsimp only at h
    split_ifs at h
    · obtain ⟨b₁, hrun, hpair⟩ := map_eq_some_iff.1 h
      obtain ⟨rfl, -⟩ := Prod.mk.inj hpair
      exact htouch.trans (creditObjectives_follows hload hreward hq htouch.structured hin'
        (hmatching q hq) hrun)
    · exact next_eq h ▸ htouch

theorem killedPlayerCredit_follows (hb : Structured env b)
    (h : b.killedPlayerCredit env reward = some b') : Follows env none b b' := by
  refine forSlots_follows (fun {i b b' stop} hin hb h => ?_) hb h
  split at h
  · exact next_eq h ▸ .refl hb
  · have htouch : Follows env none b (b.touch i) := .touch hb (hin.entry hb)
    have hin' : (b.touch i).InLog i := hin
    dsimp only at h
    split_ifs at h
    · obtain ⟨b₁, hrun, hpair⟩ := map_eq_some_iff.1 h
      obtain ⟨rfl, -⟩ := Prod.mk.inj hpair
      refine touch_tryComplete hload hreward hb hin ?_ hrun
      rw [data_touch]
    · obtain ⟨b₁, hrun, hpair⟩ := map_eq_some_iff.1 h
      obtain ⟨rfl, -⟩ := Prod.mk.inj hpair
      exact htouch.trans (tryComplete_inLog hload hreward htouch.structured hin' hrun)
    · exact next_eq h ▸ htouch

theorem areaExplored_structured (hb : Structured env b)
    (h : b.areaExploredOrEventHappens env reward i = some b') : Structured env b' := by
  unfold areaExploredOrEventHappens at h
  split_ifs at h with h0
  · exact some.inj h ▸ hb
  split at h
  · rename_i slot hslot
    have hin : b.InLog i := ⟨h0, slot, by simpa using List.find?_some hslot⟩
    have hset : Follows env none b (b.setData i { b.data i with explored := true }) :=
      .setData hb (hin.entry hb) (hb.data_status (hin.entry hb))
    have hexplored := hset.trans (.record hset.structured (.explored i))
    exact (tryComplete_follows hload hreward hexplored.structured h).structured
  · exact (tryComplete_follows hload hreward hb h).structured

omit hload hreward in
theorem Structured.resetQuestStatus (hb : Structured env b) (period : Period) :
    Structured env (b.resetQuestStatus period) := by
  have hreset : Follows env none b (b.resetQuestStatus period) := by
    cases period <;> exact .of_eq hb (fun _ => .inl rfl) rfl rfl
  exact hreset.structured

omit hload hreward in
/-- At most one index passes a test that no two pass. -/
theorem length_filter_le_one {n : ℕ} {p : Fin n → Bool} (h : ∀ i j, p i → p j → i = j) :
    ((List.finRange n).filter p).length ≤ 1 := by
  have hnodup : ((List.finRange n).filter p).Nodup := (nodup_finRange n).filter p
  have hmem : ∀ i ∈ (List.finRange n).filter p, p i := fun i hi => (mem_filter.1 hi).2
  revert hnodup hmem
  generalize (List.finRange n).filter p = l
  intro hnodup hmem
  match l with
  | [] => exact Nat.zero_le 1
  | [_] => exact le_refl 1
  | i :: j :: _ =>
    have hij := h i j (hmem i (by simp)) (hmem j (by simp))
    exact absurd (by simp [hij]) (nodup_cons.1 hnodup).1

/-! ### Any request -/

/-- Serving a request keeps the invariant. -/
theorem serve_structured {a : Request} (hb : Structured env b) (hreg : a.Regular env)
    (hmay : ∀ q invited, a = .confirmAccept q.id invited → env.template q.id = some q →
      q.partyAccept = true → invited = true → b.canAddQuest q = true → MayEnter env b q)
    (h : b.serve env reward a = some b') : Structured env b' := by
  cases a with
  | acceptQuest questId reachable giverTimer =>
    exact (handleQuestgiverAcceptQuest_takes h).structured hload hreward hb
  | queryQuest questId reachable =>
    exact (handleQuestgiverQueryQuest_takes h).structured hload hreward hb
  | autoAccept questId reachable giverTimer =>
    exact (autoAccept_takes h).structured hload hreward hb
  | confirmAccept questId invited =>
    refine handleQuestConfirmAccept_structured hload hreward hb (fun q hq hid => ?_) h
    exact hmay q invited (by rw [hid]) hq
  | requestReward questId reachable =>
    simp only [serve, handleQuestgiverRequestReward] at h
    split_ifs at h
    · exact (tryComplete_follows hload hreward hb h).structured
    · exact some.inj h ▸ hb
  | chooseReward questId choice reachable offered =>
    exact handleQuestgiverChooseReward_structured hload hreward hb h
  | removeQuest slot taken => exact handleQuestLogRemoveQuest_structured hload hreward hb h
  | swapQuest slot1 slot2 => exact some.inj h ▸ handleQuestLogSwapQuest_structured hb
  | killedMonsterCredit entry | killCreditGO entry =>
    refine (creditSlots_follows hload hreward (fun q _ _ => ?_) hb h).structured
    split_ifs
    · exact length_toList_le
    · exact Nat.zero_le 1
  | killedPlayerCredit => exact (killedPlayerCredit_follows hload hreward hb h).structured
  | talkedToCreature entry =>
    refine (creditSlots_follows hload hreward (fun q hq htr => ?_) hb h).structured
    split_ifs
    · refine length_filter_le_one fun i j hi hj => ?_
      simp only [Bool.and_eq_true, decide_eq_true_eq] at hi hj
      exact hreg q hq htr i j (by omega) (by omega) (by omega)
    · exact Nat.zero_le 1
  | areaExplored questId => exact areaExplored_structured hload hreward hb h
  | check c => exact (check_follows hload hreward hb h).structured
  | failQuest questId destroyed | updateTimer questId diff destroyed => exact hreg.elim
  | resetDailyQuestStatus => exact some.inj h ▸ hb.resetQuestStatus .day
  | resetWeeklyQuestStatus => exact some.inj h ▸ hb.resetQuestStatus .week
  | resetMonthlyQuestStatus => exact some.inj h ▸ hb.resetQuestStatus .month
  | resetSeasonalQuestStatus event =>
    have hreset : Follows env none b
        { b with seasonalQuests := update b.seasonalQuests event [] } :=
      .of_eq hb (fun _ => .inl rfl) rfl rfl
    exact some.inj h ▸ hreset.structured

end Serve

/-- A step keeps the invariant, as long as there is a book. -/
theorem step_structured {depth : ℕ} (hload : env.Loaded) (s : Option QuestBook)
    (a : Outside × Request) (hs : ∀ b, s = some b → Structured env b)
    (hc : a.2.Regular env ∧ Invited env s a) :
    ∀ b', step env depth s a = some b' → Structured env b' := by
  intro b' h
  obtain ⟨b, rfl, hserve⟩ := bind_eq_some_iff.1 h
  have hout : Follows env none b { b with outside := a.1 } := .outside (hs b rfl) a.1
  exact serve_structured hload (rewardQuest_settles hload depth) hout.structured hc.1
    (hc.2 b rfl) hserve

end QuestBook

/-- A quest that a party shares. -/
def partyQuest : Quest where
  id := 7
  partyAccept := true
  exclusiveGroup := 4

/-- Another quest of its group. -/
def rivalQuest : Quest where
  id := 8
  exclusiveGroup := 4

def partyEnv : LoadedQuests where
  template := fun i => if i = 7 then some partyQuest else if i = 8 then some rivalQuest else none
  template_id := by
    intro i q h
    split_ifs at h with h₇ h₈
    · rw [← some.inj h, h₇]
      rfl
    · rw [← some.inj h, h₈]
      rfl
  exclusiveQuestGroups := fun g => if g = 4 then [7, 8] else []
  loaded := by
    intro i q h _
    dsimp only at h
    split_ifs at h with h₇ h₈
    · rw [← some.inj h, h₇]
      decide
    · rw [← some.inj h, h₈]
      decide

/-- The invitation is accepted with an empty log, the other quest of the group is refused and
the slots are swapped. -/
def partyRun : List (Outside × QuestBook.Request) :=
  [({}, .confirmAccept 7 true), ({}, .acceptQuest 8 true none), ({}, .swapQuest 0 3)]

/-- The quest is accepted, the invitation to it is accepted as well, and one of the two is
abandoned. -/
def twiceRun : List (Outside × QuestBook.Request) :=
  [({}, .acceptQuest 7 true none), ({}, .confirmAccept 7 true), ({}, .removeQuest 0 (some []))]

end MistyWorld
