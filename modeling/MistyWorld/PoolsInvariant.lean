import MistyWorld.Pools
import MistyWorld.Run

/-!
# The counters of spawn pools

`Balanced` : the counter of every pool is the number of its active members. Activating an inactive
member of a pool which is itself active or has no mother (`Live`) keeps this, and so does removing
an active member.

What a despawn of a pool may do is `Lowered`, and what a spawn may do is `Spawned` : counters of
pools of at least its rank stay, its own limit and those below are kept. Both are proved by
induction on the rank.

Quests do not fit in : saved rows are activated whether or not they are members, inactive, or too
many, and the quests recycled may be those of other pools. `QuestMeets` excludes this for one
choice of quests. Runs whose choices meet it, and which spawn and change child pools only while
these are active, keep all counters exact and within the limits (`accounted_run`); a change of the
daily quests of two pools is enough to lose count (`not_accounted_twoPools`).
-/

open Option List Word Machine

namespace MistyWorld

/-! ## Counting -/

theorem countP_eq_add_one {α : Type*} {l : List α} {a : α} {f g : α → Bool} (hl : l.Nodup)
    (ha : a ∈ l) (hf : f a = false) (hg : g a = true) (h : ∀ b ∈ l, b ≠ a → g b = f b) :
    l.countP g = l.countP f + 1 := by
  induction l with
  | nil => exact absurd ha not_mem_nil
  | cons b l ih =>
    obtain ⟨hb, hl⟩ := nodup_cons.mp hl
    rw [countP_cons, countP_cons]
    rcases eq_or_ne b a with rfl | hne
    · have hrest : l.countP g = l.countP f := countP_congr fun c hc => by
        rw [h c (mem_cons_of_mem b hc) (ne_of_mem_of_not_mem hc hb)]
      rw [hf, hg, hrest]
      simp only [Bool.false_eq_true, ↓reduceIte]
    · have hrest := ih hl ((mem_cons.mp ha).resolve_left hne.symm)
        fun c hc => h c (mem_cons_of_mem b hc)
      rw [h b mem_cons_self hne, hrest]
      omega

/-! ## Active objects -/

namespace ActivePoolData

variable {d : ActivePoolData} {kind : PoolKind} {g p : ℕ}

theorem isActiveObject_activateObject (d : ActivePoolData) (kind : PoolKind) (g p : ℕ)
    (k : PoolKind) (x : ℕ) : (d.activateObject kind g p).isActiveObject k x = true ↔
      d.isActiveObject k x = true ∨ (k = kind ∧ x = g) ∨ k = .pool ∧ x = p := by
  cases kind <;> cases k <;>
    simp [activateObject, increase, isActiveObject, Function.update_apply, mem_insert_iff,
      or_comm]
  all_goals split_ifs <;> simp_all

theorem isActiveObject_removeObject (d : ActivePoolData) (kind : PoolKind) (g p : ℕ)
    (k : PoolKind) (x : ℕ) : (d.removeObject kind g p).isActiveObject k x = true ↔
      (d.isActiveObject k x = true ∧ ¬(k = kind ∧ x = g)) ∨ k = .pool ∧ x = p := by
  cases kind <;> cases k <;>
    simp [removeObject, decrease, isActiveObject, Function.update_apply]
  all_goals split_ifs <;> simp_all

theorem count_activateObject (hgp : kind = .pool → g ≠ p) (q : ℕ) :
    (d.activateObject kind g p).count q =
      if q = p then d.count p + 1 else if kind = .pool ∧ q = g then 0 else d.count q := by
  cases kind <;> simp only [activateObject, increase, count, Function.update_apply]
  all_goals split_ifs <;> simp_all

theorem count_removeObject (hgp : kind = .pool → g ≠ p) (q : ℕ) :
    (d.removeObject kind g p).count q =
      if q = p then d.count p - 1 else if kind = .pool ∧ q = g then 0 else d.count q := by
  cases kind <;> simp only [removeObject, decrease, count, Function.update_apply]
  all_goals split_ifs <;> simp_all

theorem count_of_inactive (h : d.isActiveObject .pool p = false) : d.count p = 0 := by
  rw [isActiveObject, isSome_eq_false_iff, isNone_iff_eq_none] at h
  rw [count, h, getD_none]

theorem active_of_count_pos (h : 0 < d.count p) : d.isActiveObject .pool p = true := by
  by_contra hp
  rw [Bool.not_eq_true] at hp
  exact absurd (count_of_inactive hp) h.ne'

end ActivePoolData

namespace PoolConfig

variable (cfg : PoolConfig)

/-! ## Members -/

/-- The members of a pool, of all kinds. -/
def members (p : ℕ) : List (PoolKind × ℕ) :=
  [PoolKind.creature, .gameobject, .pool, .quest].flatMap fun kind =>
    (cfg.group kind p).guids.map (Prod.mk kind)

/-- The members of a pool that are active. -/
def active (d : ActivePoolData) (p : ℕ) : ℕ :=
  (cfg.members p).countP fun m => d.isActiveObject m.1 m.2

/-- The counter of every pool is the number of its active members. -/
def Balanced (d : ActivePoolData) : Prop :=
  ∀ p, d.count p = cfg.active d p

/-- A pool without a mother, or active in its mother. -/
def Live (d : ActivePoolData) (p : ℕ) : Prop :=
  cfg.mother p = none ∨ d.isActiveObject .pool p = true

variable {cfg} {d d' d'' : ActivePoolData} {kind : PoolKind} {g p : ℕ}

theorem mem_members {m : PoolKind × ℕ} : m ∈ cfg.members p ↔ m.2 ∈ (cfg.group m.1 p).guids := by
  obtain ⟨kind, g⟩ := m
  cases kind <;> simp [members]

theorem nodup_members (p : ℕ) : (cfg.members p).Nodup := by
  refine nodup_flatMap.mpr ⟨fun kind _ => ?_, ?_⟩
  · exact (cfg.nodup kind p).map (Prod.mk_right_injective kind)
  · have hkinds : [PoolKind.creature, .gameobject, .pool, .quest].Nodup := by decide
    refine hkinds.imp fun {a b} hab m ha hb => hab ?_
    obtain ⟨_, -, rfl⟩ := mem_map.mp ha
    obtain ⟨_, -, h⟩ := mem_map.mp hb
    exact (congrArg Prod.fst h).symm

theorem active_congr (h : ∀ k x, x ∈ (cfg.group k p).guids →
    (d'.isActiveObject k x = true ↔ d.isActiveObject k x = true)) :
    cfg.active d' p = cfg.active d p :=
  countP_congr fun m hm => h m.1 m.2 (mem_members.mp hm)

theorem active_eq_add_one (hg : g ∈ (cfg.group kind p).guids)
    (hd : d.isActiveObject kind g = false) (hd' : d'.isActiveObject kind g = true)
    (h : ∀ k x, x ∈ (cfg.group k p).guids → ¬(k = kind ∧ x = g) →
      (d'.isActiveObject k x = true ↔ d.isActiveObject k x = true)) :
    cfg.active d' p = cfg.active d p + 1 := by
  refine countP_eq_add_one (nodup_members p) (mem_members (m := (kind, g)) |>.mpr hg) hd hd' ?_
  rintro ⟨k, x⟩ hx hne
  rw [Bool.eq_iff_iff]
  refine h k x (mem_members.mp hx) ?_
  rintro ⟨rfl, rfl⟩
  exact hne rfl

/-- The active members, kind by kind. -/
theorem active_eq (d : ActivePoolData) (p : ℕ) : cfg.active d p =
    (cfg.group .creature p).guids.countP (d.isActiveObject .creature) +
      ((cfg.group .gameobject p).guids.countP (d.isActiveObject .gameobject) +
        ((cfg.group .pool p).guids.countP (d.isActiveObject .pool) +
          (cfg.group .quest p).guids.countP (d.isActiveObject .quest))) := by
  simp only [active, members, flatMap_cons, flatMap_nil, append_nil,
    countP_append, countP_map, Function.comp_def]

theorem active_eq_zero (h : ∀ k x, x ∈ (cfg.group k p).guids → d.isActiveObject k x = false) :
    cfg.active d p = 0 :=
  countP_eq_zero.mpr fun m hm => by
    rw [h m.1 m.2 (mem_members.mp hm)]
    exact Bool.false_ne_true

theorem child_ne (hg : g ∈ (cfg.group kind p).guids) : kind = .pool → g ≠ p := by
  rintro rfl rfl
  exact absurd (cfg.rank_lt hg) (lt_irrefl _)

theorem Balanced.count_pos (h : cfg.Balanced d) (hg : g ∈ (cfg.group kind p).guids)
    (ha : d.isActiveObject kind g = true) : 0 < d.count p := by
  rw [h p]
  exact countP_pos_iff.mpr ⟨(kind, g), mem_members.mpr hg, ha⟩

theorem Balanced.active_pool (h : cfg.Balanced d) (hg : g ∈ (cfg.group kind p).guids)
    (ha : d.isActiveObject kind g = true) : d.isActiveObject .pool p = true :=
  ActivePoolData.active_of_count_pos (h.count_pos hg ha)

/-- A live pool that is a member is active. -/
theorem Live.active {q : ℕ} (h : cfg.Live d p) (hp : p ∈ (cfg.group .pool q).guids) :
    d.isActiveObject .pool p = true := by
  refine h.resolve_left fun hnone => ?_
  rw [cfg.mother_iff.mpr hp] at hnone
  exact absurd hnone (some_ne_none q)

theorem Live.mono (h : cfg.Live d p)
    (hkey : d.isActiveObject .pool p = true → d'.isActiveObject .pool p = true) : cfg.Live d' p :=
  h.imp_right hkey

/-- Activating an inactive member of a live pool. -/
theorem Balanced.activate (h : cfg.Balanced d) (hl : cfg.Live d p)
    (hg : g ∈ (cfg.group kind p).guids) (hi : d.isActiveObject kind g = false) :
    cfg.Balanced (d.activateObject kind g p) ∧
      ∀ q, (d.activateObject kind g p).count q = if q = p then d.count p + 1 else d.count q := by
  have hcount : ∀ q, (d.activateObject kind g p).count q =
      if q = p then d.count p + 1 else d.count q := fun q => by
    rw [ActivePoolData.count_activateObject (child_ne hg)]
    split
    · rfl
    · split
      · next hq => rw [hq.2, ActivePoolData.count_of_inactive (hq.1 ▸ hi)]
      · rfl
  have hstatus : ∀ {q k x}, x ∈ (cfg.group k q).guids → ¬(k = kind ∧ x = g) →
      ((d.activateObject kind g p).isActiveObject k x = true ↔
        d.isActiveObject k x = true) := fun {q k x} hx hne => by
    rw [ActivePoolData.isActiveObject_activateObject]
    refine ⟨?_, .inl⟩
    rintro (hx' | hx' | ⟨rfl, rfl⟩)
    · exact hx'
    · exact absurd hx' hne
    · exact hl.active hx
  refine ⟨fun q => ?_, hcount⟩
  rw [hcount]
  split
  · next hq =>
    rw [hq, active_eq_add_one hg hi _ fun k x => hstatus, h p]
    exact (ActivePoolData.isActiveObject_activateObject d kind g p kind g).mpr
      (.inr (.inl ⟨rfl, rfl⟩))
  · next hq =>
    rw [h q]
    refine (active_congr fun k x hx => hstatus hx ?_).symm
    rintro ⟨rfl, rfl⟩
    exact hq (cfg.unique hx hg)

/-- Removing an active member, a pool only with a counter of zero. -/
theorem Balanced.remove (h : cfg.Balanced d) (hg : g ∈ (cfg.group kind p).guids)
    (ha : d.isActiveObject kind g = true) (hz : kind = .pool → d.count g = 0) :
    cfg.Balanced (d.removeObject kind g p) ∧
      ∀ q, (d.removeObject kind g p).count q = if q = p then d.count p - 1 else d.count q := by
  have hp := h.active_pool hg ha
  have hcount : ∀ q, (d.removeObject kind g p).count q =
      if q = p then d.count p - 1 else d.count q := fun q => by
    rw [ActivePoolData.count_removeObject (child_ne hg)]
    split
    · rfl
    · split
      · next hq => rw [hq.2, hz hq.1]
      · rfl
  have hstatus : ∀ k x, ¬(k = kind ∧ x = g) →
      (d.isActiveObject k x = true ↔
        (d.removeObject kind g p).isActiveObject k x = true) := fun k x hne => by
    rw [ActivePoolData.isActiveObject_removeObject]
    refine ⟨fun hx => .inl ⟨hx, hne⟩, ?_⟩
    rintro (hx | ⟨rfl, rfl⟩)
    · exact hx.1
    · exact hp
  have hgone : (d.removeObject kind g p).isActiveObject kind g = false := by
    rw [Bool.eq_false_iff, ne_eq, ActivePoolData.isActiveObject_removeObject]
    rintro (⟨-, hne⟩ | ⟨hkind, hgp⟩)
    · exact hne ⟨rfl, rfl⟩
    · exact child_ne hg hkind hgp
  refine ⟨fun q => ?_, hcount⟩
  rw [hcount]
  split
  · next hq =>
    rw [hq, h p, active_eq_add_one hg hgone ha fun k x _ => hstatus k x]
    exact Nat.add_sub_cancel _ _
  · next hq =>
    rw [h q]
    refine active_congr fun k x hx => hstatus k x ?_
    rintro ⟨rfl, rfl⟩
    exact hq (cfg.unique hx hg)

/-! ## Despawning -/

/-- What despawning in a pool may do. -/
structure Lowered (cfg : PoolConfig) (p : ℕ) (d d' : ActivePoolData) : Prop where
  balanced : cfg.Balanced d'
  le : ∀ q, d'.count q ≤ d.count q
  active : ∀ k x, d'.isActiveObject k x = true → d.isActiveObject k x = true
  count : ∀ q, q ≠ p → cfg.rank p ≤ cfg.rank q → d'.count q = d.count q
  key : ∀ x, cfg.rank p ≤ cfg.rank x →
    (d'.isActiveObject .pool x = true ↔ d.isActiveObject .pool x = true)

theorem Lowered.refl (h : cfg.Balanced d) : Lowered cfg p d d :=
  ⟨h, fun _ => le_rfl, fun _ _ => id, fun _ _ _ => rfl, fun _ _ => Iff.rfl⟩

theorem Lowered.trans (h : Lowered cfg p d d') (h' : Lowered cfg p d' d'') :
    Lowered cfg p d d'' where
  balanced := h'.balanced
  le q := (h'.le q).trans (h.le q)
  active k x hx := h.active k x (h'.active k x hx)
  count q hq hr := (h'.count q hq hr).trans (h.count q hq hr)
  key x hx := (h'.key x hx).trans (h.key x hx)

/-- What is done for one object before it is removed : it stays active, and a pool is emptied. -/
def Despawns (cfg : PoolConfig) (f : ℕ → ActivePoolData → ActivePoolData) (kind : PoolKind)
    (p : ℕ) : Prop :=
  ∀ g ∈ (cfg.group kind p).guids, ∀ d, cfg.Balanced d → Lowered cfg p d (f g d) ∧
    ((f g d).isActiveObject kind g = true ↔ d.isActiveObject kind g = true) ∧
    (kind = .pool → (f g d).count g = 0) ∧ (f g d).count p = d.count p

variable {f : ℕ → ActivePoolData → ActivePoolData}

/-- Despawning and removing one active member. -/
theorem Despawns.remove (hf : Despawns cfg f kind p) (hg : g ∈ (cfg.group kind p).guids)
    (h : cfg.Balanced d) (ha : d.isActiveObject kind g = true) :
    Lowered cfg p d ((f g d).removeObject kind g p) ∧
      ((f g d).removeObject kind g p).isActiveObject kind g = false ∧
      ((f g d).removeObject kind g p).count p + 1 = d.count p := by
  obtain ⟨hlow, hkept, hz, hp⟩ := hf g hg d h
  have ha' := hkept.mpr ha
  obtain ⟨hbal, hcount⟩ := hlow.balanced.remove hg ha' hz
  have hkey : (f g d).isActiveObject .pool p = true := hlow.balanced.active_pool hg ha'
  have hpos := hlow.balanced.count_pos hg ha'
  refine ⟨⟨hbal, fun q => ?_, fun k x hx => ?_, fun q hq hr => ?_, fun x hx => ?_⟩, ?_, ?_⟩
  · rw [hcount]
    split
    · next hq =>
      rw [hq]
      exact (Nat.sub_le _ _).trans (hlow.le p)
    · exact hlow.le q
  · rw [ActivePoolData.isActiveObject_removeObject] at hx
    rcases hx with hx | ⟨rfl, rfl⟩
    · exact hlow.active k x hx.1
    · exact hlow.active .pool x hkey
  · rw [hcount, if_neg hq, hlow.count q hq hr]
  · rw [← hlow.key x hx, ActivePoolData.isActiveObject_removeObject]
    constructor
    · rintro (hx' | ⟨-, rfl⟩)
      · exact hx'.1
      · exact hkey
    · refine fun hx' => .inl ⟨hx', ?_⟩
      rintro ⟨rfl, rfl⟩
      exact absurd (cfg.rank_lt hg) (not_lt.mpr hx)
  · rw [Bool.eq_false_iff, ne_eq, ActivePoolData.isActiveObject_removeObject]
    rintro (⟨-, hne⟩ | ⟨hkind, hgp⟩)
    · exact hne ⟨rfl, rfl⟩
    · exact child_ne hg hkind hgp
  · rw [hcount, if_pos rfl, ← hp]
    omega

/-- `DespawnObject` for a whole group leaves none of it active. -/
theorem Despawns.all (hf : Despawns cfg f kind p) (h : cfg.Balanced d) :
    Lowered cfg p d (cfg.despawnObject f kind p 0 d) ∧
      ∀ g ∈ (cfg.group kind p).guids,
        (cfg.despawnObject f kind p 0 d).isActiveObject kind g = false := by
  have hround : ∀ g ∈ (cfg.group kind p).guids, ∀ d, cfg.Balanced d →
      Lowered cfg p d (despawnRound f kind p 0 d g) ∧
        (despawnRound f kind p 0 d g).isActiveObject kind g = false := fun g hg d h => by
    rw [despawnRound]
    split
    · next ha =>
      obtain ⟨hlow, hgone, -⟩ := hf.remove hg h ha.1
      exact ⟨hlow, hgone⟩
    · next ha => exact ⟨.refl h, Bool.eq_false_iff.mpr fun ha' => ha ⟨ha', .inl rfl⟩⟩
  have hloop : ∀ (l : List ℕ) (d : ActivePoolData), (∀ g ∈ l, g ∈ (cfg.group kind p).guids) →
      cfg.Balanced d → Lowered cfg p d (l.foldl (despawnRound f kind p 0) d) ∧
        ∀ g ∈ l, (l.foldl (despawnRound f kind p 0) d).isActiveObject kind g = false := by
    intro l
    induction l with
    | nil => exact fun d _ h => ⟨.refl h, fun g hg => absurd hg not_mem_nil⟩
    | cons g l ih =>
      intro d hl h
      obtain ⟨hlow, hgone⟩ := hround g (hl g mem_cons_self) d h
      obtain ⟨hlow', hgone'⟩ := ih _ (fun x hx => hl x (mem_cons_of_mem g hx)) hlow.balanced
      refine ⟨hlow.trans hlow', fun x hx => ?_⟩
      rcases mem_cons.mp hx with rfl | hx
      · exact Bool.eq_false_iff.mpr fun ha => Bool.eq_false_iff.mp hgone (hlow'.active kind x ha)
      · exact hgone' x hx
  exact hloop _ d (fun _ => id) h

/-- `DespawnObject` for one active member. -/
theorem despawnObject_one (hg : g ∈ (cfg.group kind p).guids) (hg0 : g ≠ 0)
    (ha : d.isActiveObject kind g = true) :
    cfg.despawnObject f kind p g d = (f g d).removeObject kind g p := by
  have hskip : ∀ (l : List ℕ) (d : ActivePoolData), g ∉ l →
      l.foldl (despawnRound f kind p g) d = d := by
    intro l
    induction l with
    | nil => exact fun _ _ => rfl
    | cons x l ih =>
      intro d hx
      rw [mem_cons, not_or] at hx
      rw [foldl_cons, despawnRound, if_neg fun h => h.2.elim hg0 fun h => hx.1 h.symm]
      exact ih d hx.2
  obtain ⟨l1, l2, hl⟩ := append_of_mem hg
  have hnodup := cfg.nodup kind p
  rw [hl, nodup_middle, nodup_cons, mem_append, not_or] at hnodup
  rw [despawnObject, hl, foldl_append, foldl_cons, hskip l1 d hnodup.1.1, despawnRound,
    if_pos ⟨ha, .inr rfl⟩, hskip l2 _ hnodup.1.2]

variable (cfg) {s : PoolMgr} in
theorem despawns_id (kind : PoolKind) (hkind : kind ≠ .pool) (p : ℕ) :
    Despawns cfg (fun _ d => d) kind p :=
  fun _ _ _ h => ⟨.refl h, Iff.rfl, fun h => absurd h hkind, rfl⟩

/-- Emptying the child pools is what is done before they are removed. -/
theorem despawns_of (h : ∀ g ∈ (cfg.group .pool p).guids, ∀ d, cfg.Balanced d →
    Lowered cfg g d (cfg.despawnPool g d) ∧ (cfg.despawnPool g d).count g = 0)
    (kind : PoolKind) : Despawns cfg (despawn1Object cfg.despawnPool kind) kind p := by
  intro g hg d hd
  rw [despawn1Object]
  split
  · next hkind =>
    subst hkind
    have hlt := cfg.rank_lt hg
    obtain ⟨hlow, hzero⟩ := h g hg d hd
    have hne : ∀ {q}, cfg.rank p ≤ cfg.rank q → q ≠ g := by
      rintro q hq rfl
      exact absurd hlt (not_lt.mpr hq)
    exact ⟨⟨hlow.balanced, hlow.le, hlow.active,
      fun q _ hq => hlow.count q (hne hq) (hlt.le.trans hq),
      fun x hx => hlow.key x (hlt.le.trans hx)⟩, hlow.key g le_rfl, fun _ => hzero,
      hlow.count p (hne le_rfl) hlt.le⟩
  · next hkind => exact despawns_id cfg kind hkind p g hg d hd

/-- `DespawnPool` empties the pool. -/
theorem despawnPool_spec (p : ℕ) (h : cfg.Balanced d) :
    Lowered cfg p d (cfg.despawnPool p d) ∧ (cfg.despawnPool p d).count p = 0 := by
  induction hr : cfg.rank p using Nat.strong_induction_on generalizing p d with
  | _ r ih =>
    subst hr
    have hdespawns := despawns_of fun g hg d hd => ih _ (cfg.rank_lt hg) g hd rfl
    have hgroup : ∀ kind (d : ActivePoolData), cfg.Balanced d →
        Lowered cfg p d (cfg.despawnGroup cfg.despawnPool p d kind) ∧
          ∀ g ∈ (cfg.group kind p).guids,
            (cfg.despawnGroup cfg.despawnPool p d kind).isActiveObject kind g = false := by
      intro kind d h
      rw [despawnGroup]
      split
      · next hempty =>
        rw [PoolGroup.guids_of_isEmpty hempty]
        exact ⟨.refl h, fun g hg => absurd hg not_mem_nil⟩
      · exact (hdespawns kind).all h
    rw [despawnPool_eq]
    simp only [foldl_cons, foldl_nil]
    obtain ⟨h1, hc⟩ := hgroup .creature d h
    obtain ⟨h2, hgo⟩ := hgroup .gameobject _ h1.balanced
    obtain ⟨h3, hpo⟩ := hgroup .pool _ h2.balanced
    obtain ⟨h4, hq⟩ := hgroup .quest _ h3.balanced
    refine ⟨((h1.trans h2).trans h3).trans h4, ?_⟩
    have hgone : ∀ {d d' : ActivePoolData} {k : PoolKind} {x : ℕ}, Lowered cfg p d d' →
        d.isActiveObject k x = false → d'.isActiveObject k x = false := fun hlow hx =>
      Bool.eq_false_iff.mpr fun ha => Bool.eq_false_iff.mp hx (hlow.active _ _ ha)
    rw [h4.balanced p]
    refine active_eq_zero fun k x hx => ?_
    cases k with
    | creature => exact hgone ((h2.trans h3).trans h4) (hc x hx)
    | gameobject => exact hgone (h3.trans h4) (hgo x hx)
    | pool => exact hgone h4 (hpo x hx)
    | quest => exact hq x hx

/-! ## Quests -/

/-- What spawning in a pool may do to the others, and to which pools are active. -/
structure Grown (cfg : PoolConfig) (p : ℕ) (d d' : ActivePoolData) : Prop where
  balanced : cfg.Balanced d'
  key : ∀ x, d.isActiveObject .pool x = true → d'.isActiveObject .pool x = true
  count : ∀ q, q ≠ p → cfg.rank p ≤ cfg.rank q → d'.count q = d.count q
  within : (∀ q, cfg.rank q < cfg.rank p → d.count q ≤ cfg.maxLimit q) →
    ∀ q, cfg.rank q < cfg.rank p → d'.count q ≤ cfg.maxLimit q

theorem Grown.refl (h : cfg.Balanced d) : Grown cfg p d d :=
  ⟨h, fun _ => id, fun _ _ _ => rfl, id⟩

theorem Grown.trans (h : Grown cfg p d d') (h' : Grown cfg p d' d'') :
    Grown cfg p d d'' where
  balanced := h'.balanced
  key x hx := h'.key x (h.key x hx)
  count q hq hr := (h'.count q hq hr).trans (h.count q hq hr)
  within hw := h'.within (h.within hw)

/-- Activating an inactive member of a live pool. -/
theorem Balanced.grown (h : cfg.Balanced d) (hl : cfg.Live d p)
    (hg : g ∈ (cfg.group kind p).guids) (hi : d.isActiveObject kind g = false) :
    Grown cfg p d (d.activateObject kind g p) ∧
      (d.activateObject kind g p).count p = d.count p + 1 := by
  obtain ⟨hbal, hcount⟩ := h.activate hl hg hi
  refine ⟨⟨hbal, fun x hx => ?_, fun q hq _ => ?_, fun hw q hq => ?_⟩, ?_⟩
  · exact (ActivePoolData.isActiveObject_activateObject d kind g p .pool x).mpr (.inl hx)
  · rw [hcount, if_neg hq]
  · rw [hcount, if_neg (ne_of_apply_ne cfg.rank hq.ne)]
    exact hw q hq
  · rw [hcount, if_pos rfl]

/-- The rounds of a loop that ends when `--limit` is zero. -/
def passes (limit : ℕ) : ℕ :=
  if limit = 0 then 2 ^ 32 else limit

variable {limit : ℕ}

theorem passes_pred (h : limit < 2 ^ 32) :
    toU32 ((limit : ℤ) - 1) < 2 ^ 32 ∧ (toU32 ((limit : ℤ) - 1) = 0 → passes limit = 1) ∧
      (toU32 ((limit : ℤ) - 1) ≠ 0 → passes limit = passes (toU32 ((limit : ℤ) - 1)) + 1) := by
  have hpred : toU32 ((limit : ℤ) - 1) = if limit = 0 then 2 ^ 32 - 1 else limit - 1 := by
    unfold toU32
    split <;> omega
  unfold passes
  refine ⟨?_, fun hzero => ?_, fun hzero => ?_⟩ <;> split_ifs at * <;> omega

/-- A quest other than the one activated is active if it was. -/
theorem quest_inactive {quest x : ℕ} (hne : x ≠ quest) (h : d.isActiveObject .quest x = false) :
    (d.activateObject .quest quest p).isActiveObject .quest x = false := by
  rw [Bool.eq_false_iff, ne_eq, ActivePoolData.isActiveObject_activateObject]
  rintro (hx | ⟨-, rfl⟩ | ⟨hpool, -⟩)
  · exact Bool.eq_false_iff.mp h hx
  · exact hne rfl
  · exact absurd hpool (by decide)

/-- Saved rows that are inactive quests of the pool are counted once each. -/
theorem restoreQuests_spec {rows : List ℕ} (hlimit : limit < 2 ^ 32) (h : cfg.Balanced d)
    (hl : cfg.Live d p) (hnodup : (rows.take (passes limit)).Nodup)
    (hquest : ∀ quest ∈ rows.take (passes limit), quest ∈ (cfg.group .quest p).guids ∧
      d.isActiveObject .quest quest = false) :
    Grown cfg p d (restoreQuests p limit rows d) ∧ (restoreQuests p limit rows d).count p =
      d.count p + (rows.take (passes limit)).length := by
  induction rows generalizing limit d with
  | nil =>
    rw [take_nil]
    exact ⟨.refl h, rfl⟩
  | cons quest rows ih =>
    obtain ⟨hlt, hone, hmore⟩ := passes_pred hlimit
    have hpos : passes limit = passes limit - 1 + 1 := by
      unfold passes
      split <;> omega
    rw [hpos, take_succ_cons] at hnodup hquest ⊢
    obtain ⟨hnew, hnodup⟩ := nodup_cons.mp hnodup
    obtain ⟨hmem, hinactive⟩ := hquest quest mem_cons_self
    obtain ⟨hgrown, hcount⟩ := h.grown hl hmem hinactive
    rw [restoreQuests]
    split
    · next hzero =>
      rw [hone hzero, Nat.sub_self, take_zero]
      exact ⟨hgrown, hcount⟩
    · next hzero =>
      rw [hmore hzero, Nat.add_sub_cancel] at hnodup hquest hnew ⊢
      obtain ⟨hgrown', hcount'⟩ := ih hlt hgrown.balanced (hl.mono (hgrown.key p)) hnodup
        fun x hx => ⟨(hquest x (mem_cons_of_mem quest hx)).1,
          quest_inactive (ne_of_mem_of_not_mem hx hnew)
            (hquest x (mem_cons_of_mem quest hx)).2⟩
      refine ⟨hgrown.trans hgrown', ?_⟩
      rw [hcount', hcount, length_cons]
      omega

theorem selectRandom_mem {l : List ℕ} (h : l ≠ []) (s : PoolMgr) : (selectRandom l s).1 ∈ l := by
  have hlt : s.picks.headD 0 % l.length < l.length := Nat.mod_lt _ (length_pos_iff.mpr h)
  rw [selectRandom, PoolMgr.irand]
  dsimp only
  rw [getD_eq_getElem?_getD, List.getElem?_eq_getElem hlt, getD_some]
  exact getElem_mem hlt

theorem selectRandom_snd (l : List ℕ) (s : PoolMgr) :
    (selectRandom l s).2.spawns = s.spawns ∧ (selectRandom l s).2.log = s.log :=
  ⟨rfl, rfl⟩

theorem length_filter_ne {l : List ℕ} {quest : ℕ} (hl : l.Nodup) (h : quest ∈ l) :
    (l.filter (· ≠ quest)).length + 1 = l.length := by
  have herase : l.filter (· ≠ quest) = l.erase quest := by
    rw [hl.erase_eq_filter]
    simp only [ne_eq, decide_not, bne]
    rfl
  rw [herase, length_erase_of_mem h]
  have := length_pos_of_mem h
  omega

/-- Inactive quests of the pool are activated as often as the limit says, once each. -/
theorem activateQuests_spec {n : ℕ} {newQuests : List ℕ} (hn : newQuests.length = n)
    (hlimit : limit < 2 ^ 32) (h : cfg.Balanced s.spawns) (hl : cfg.Live s.spawns p)
    (hnodup : newQuests.Nodup) (hquest : ∀ quest ∈ newQuests, quest ∈ (cfg.group .quest p).guids ∧
      s.spawns.isActiveObject .quest quest = false) :
    Grown cfg p s.spawns (activateQuests p n limit newQuests s).spawns ∧
      (activateQuests p n limit newQuests s).spawns.count p =
        s.spawns.count p + min (passes limit) newQuests.length := by
  induction n generalizing limit newQuests s with
  | zero =>
    rw [hn, Nat.min_zero]
    exact ⟨.refl h, rfl⟩
  | succ n ih =>
    obtain ⟨hlt, hone, hmore⟩ := passes_pred hlimit
    obtain ⟨quest, s', hselect⟩ : ∃ quest s', selectRandom newQuests s = (quest, s') :=
      ⟨_, _, rfl⟩
    have hsel : quest ∈ newQuests := by
      have hmem := selectRandom_mem (ne_nil_of_length_eq_add_one hn) s
      rwa [hselect] at hmem
    have hspawns : s'.spawns = s.spawns := by
      have hsnd := (selectRandom_snd newQuests s).1
      rwa [hselect] at hsnd
    have hlen := length_filter_ne hnodup hsel
    obtain ⟨hmem, hinactive⟩ := hquest quest hsel
    obtain ⟨hgrown, hcount⟩ := h.grown hl hmem hinactive
    rw [← hspawns] at hgrown hcount hl hquest ⊢
    rw [activateQuests, hselect]
    dsimp only
    split
    · next hgo =>
      have hrest : (newQuests.filter (· ≠ quest)).length = n := by omega
      obtain ⟨hgrown', hcount'⟩ := ih (s := s'.activateObject .quest quest p) hrest hlt
        hgrown.balanced (hl.mono (hgrown.key p)) (hnodup.filter _) fun x hx => by
          obtain ⟨hx, hne⟩ := mem_filter.mp hx
          exact ⟨(hquest x hx).1, quest_inactive (of_decide_eq_true hne) (hquest x hx).2⟩
      refine ⟨hgrown.trans hgrown', hcount'.trans ?_⟩
      refine (congrArg (· + _) hcount).trans ?_
      omega
    · next hstop =>
      refine ⟨hgrown, hcount.trans (congrArg (s'.spawns.count p + ·) ?_)⟩
      by_cases hzero : toU32 ((limit : ℤ) - 1) = 0
      · rw [hone hzero]
        omega
      · have hnil : newQuests.filter (· ≠ quest) = [] :=
          by_contra fun hne => hstop ⟨hzero, hne⟩
        rw [hnil, length_nil] at hlen
        have hpos := hmore hzero
        omega

variable (cfg) in
theorem freshQuests_spec (p : ℕ) (d : ActivePoolData) : (cfg.freshQuests p d).Nodup := by
  have hloop : ∀ (os : List PoolObject) (fresh : List ℕ), fresh.Nodup →
      (os.foldl (fun fresh o => if d.isActiveObject .quest o.guid then fresh
        else fresh.insert o.guid) fresh).Nodup := by
    intro os
    induction os with
    | nil => exact fun _ h => h
    | cons o os ih =>
      intro fresh h
      rw [foldl_cons]
      refine ih _ ?_
      split
      · exact h
      · exact h.insert
  exact hloop _ [] nodup_nil

theorem recycleQuests_spec (limit n : ℕ) (currentQuests : List ℕ) {newQuests : List ℕ}
    (h : newQuests.Nodup) (s : PoolMgr) :
    (recycleQuests limit n currentQuests newQuests s).1.Nodup ∧
      (recycleQuests limit n currentQuests newQuests s).2.spawns = s.spawns ∧
      (recycleQuests limit n currentQuests newQuests s).2.log = s.log := by
  induction n generalizing currentQuests newQuests s with
  | zero => exact ⟨h, rfl, rfl⟩
  | succ n ih =>
    rw [recycleQuests]
    dsimp only
    split
    · exact ih _ h.insert _
    · exact ⟨h.insert, rfl, rfl⟩

/-- Clearing the quests of a pool changes no other kind of members, and its counter by the quests
that were active. -/
theorem clearQuests_spec (h : cfg.Balanced d) :
    (∀ k x, k ≠ .quest →
      ((cfg.despawnObject (fun _ d => d) .quest p 0 d).isActiveObject k x = true ↔
        d.isActiveObject k x = true)) ∧
      (cfg.despawnObject (fun _ d => d) .quest p 0 d).count p =
        d.count p - (cfg.group .quest p).guids.countP (d.isActiveObject .quest) := by
  have hdespawns : Despawns cfg (fun _ d => d) .quest p := despawns_id cfg .quest (by decide) p
  have hloop : ∀ (l : List ℕ) (d : ActivePoolData), (∀ g ∈ l, g ∈ (cfg.group .quest p).guids) →
      cfg.Balanced d → ∀ k x, k ≠ .quest →
        ((l.foldl (despawnRound (fun _ d => d) .quest p 0) d).isActiveObject k x = true ↔
          d.isActiveObject k x = true) := by
    intro l
    induction l with
    | nil => exact fun _ _ _ _ _ _ => Iff.rfl
    | cons g l ih =>
      intro d hl h k x hk
      have hrest : ∀ g ∈ l, g ∈ (cfg.group .quest p).guids :=
        fun x hx => hl x (mem_cons_of_mem g hx)
      rw [foldl_cons, despawnRound]
      split
      · next ha =>
        have hg := hl g mem_cons_self
        rw [ih _ hrest (hdespawns.remove hg h ha.1).1.balanced k x hk,
          ActivePoolData.isActiveObject_removeObject]
        refine ⟨?_, fun hx => .inl ⟨hx, fun hkx => hk hkx.1⟩⟩
        rintro (hx | ⟨rfl, rfl⟩)
        · exact hx.1
        · exact h.active_pool hg ha.1
      · exact ih d hrest h k x hk
  obtain ⟨hlow, hgone⟩ := hdespawns.all h
  refine ⟨hloop _ d (fun _ => id) h, ?_⟩
  have hsame : ∀ k, k ≠ .quest → (cfg.group k p).guids.countP
      ((cfg.despawnObject (fun _ d => d) .quest p 0 d).isActiveObject k) =
        (cfg.group k p).guids.countP (d.isActiveObject k) := fun k hk =>
    countP_congr fun x _ => hloop _ d (fun _ => id) h k x hk
  have hnone : (cfg.group .quest p).guids.countP
      ((cfg.despawnObject (fun _ d => d) .quest p 0 d).isActiveObject .quest) = 0 :=
    countP_eq_zero.mpr fun g hg => Bool.eq_false_iff.mp (hgone g hg)
  rw [hlow.balanced p, h p, active_eq, active_eq, hnone, hsame .creature (by decide),
    hsame .gameobject (by decide), hsame .pool (by decide)]
  omega

/-- A choice of quests that keeps count : saved rows that are used are inactive quests of the pool,
once each; other quests are quests of the pool; and there is room for them beside the members of
other kinds. -/
def QuestMeets (cfg : PoolConfig) (e : QuestSpawn) : Prop :=
  if e.rows ≠ [] then
    (e.rows.take (passes (cfg.maxLimit e.pool))).Nodup ∧
      (∀ quest ∈ e.rows.take (passes (cfg.maxLimit e.pool)),
        quest ∈ (cfg.group .quest e.pool).guids ∧
          e.spawns.isActiveObject .quest quest = false) ∧
      e.spawns.count e.pool + (e.rows.take (passes (cfg.maxLimit e.pool))).length ≤
        cfg.maxLimit e.pool
  else
    (∀ quest ∈ e.newQuests, quest ∈ (cfg.group .quest e.pool).guids) ∧
      e.spawns.count e.pool -
          (cfg.group .quest e.pool).guids.countP (e.spawns.isActiveObject .quest) +
        min (passes (cfg.maxLimit e.pool)) e.newQuests.length ≤ cfg.maxLimit e.pool

theorem activateQuests_log (p n limit : ℕ) (newQuests : List ℕ) (s : PoolMgr) :
    (activateQuests p n limit newQuests s).log = s.log := by
  induction n generalizing limit newQuests s with
  | zero => rfl
  | succ n ih =>
    obtain ⟨quest, s', hselect⟩ : ∃ quest s', selectRandom newQuests s = (quest, s') :=
      ⟨_, _, rfl⟩
    have hlog := (selectRandom_snd newQuests s).2
    rw [hselect] at hlog
    rw [activateQuests, hselect]
    dsimp only
    split
    · exact (ih _ _ _).trans hlog
    · exact hlog

variable (cfg) {triggerFrom : ℕ} in
/-- A choice of quests clears the pool and activates quests of a list without repetitions. -/
theorem chooseQuests_eq (p triggerFrom : ℕ) (s : PoolMgr) : ∃ newQuests s', newQuests.Nodup ∧
    s'.spawns = cfg.despawnObject (fun _ d => d) .quest p 0 s.spawns ∧
    s'.log = ⟨p, triggerFrom, s.spawns, [], newQuests⟩ :: s.log ∧
    cfg.chooseQuests p triggerFrom s =
      activateQuests p newQuests.length (cfg.maxLimit p) newQuests s' := by
  rw [chooseQuests]
  split_ifs
  · obtain ⟨hnodup, hspawns, hlog⟩ := recycleQuests_spec (cfg.maxLimit p)
      s.spawns.activeQuests.length s.spawns.activeQuests (freshQuests_spec cfg p s.spawns)
      (s.withSpawns (cfg.despawnObject (fun _ d => d) .quest p 0 s.spawns))
    refine ⟨_, _, hnodup, ?_, ?_, rfl⟩
    · exact hspawns
    · exact congrArg (_ :: ·) hlog
  · exact ⟨_, _, freshQuests_spec cfg p s.spawns, rfl, rfl, rfl⟩

theorem spawnQuests_log (p triggerFrom : ℕ) (s : PoolMgr) :
    s.log <:+ (cfg.spawnQuests p triggerFrom s).log := by
  have hchoose : ∀ s : PoolMgr, s.log <:+ (cfg.chooseQuests p triggerFrom s).log := fun s => by
    obtain ⟨newQuests, s', -, -, hlog, heq⟩ := chooseQuests_eq cfg p triggerFrom s
    rw [heq, activateQuests_log, hlog]
    exact suffix_cons _ _
  rw [spawnQuests]
  split
  · dsimp only [PoolMgr.query]
    split
    · exact hchoose { s with saved := s.saved.tail }
    · exact suffix_cons _ _
  · exact hchoose s

/-- A choice of quests that is met keeps count, and ends within the limit. -/
theorem spawnQuests_spec (h : cfg.Balanced s.spawns) (hl : cfg.Live s.spawns p)
    (hmeets : ∀ e ∈ (cfg.spawnQuests p triggerFrom s).log, QuestMeets cfg e) :
    Grown cfg p s.spawns (cfg.spawnQuests p triggerFrom s).spawns ∧
      (cfg.spawnQuests p triggerFrom s).spawns.count p ≤ cfg.maxLimit p := by
  have hchoose : ∀ s : PoolMgr, cfg.Balanced s.spawns → cfg.Live s.spawns p →
      (∀ e ∈ (cfg.chooseQuests p triggerFrom s).log, QuestMeets cfg e) →
      Grown cfg p s.spawns (cfg.chooseQuests p triggerFrom s).spawns ∧
        (cfg.chooseQuests p triggerFrom s).spawns.count p ≤ cfg.maxLimit p := by
    intro s h hl hmeets
    obtain ⟨newQuests, s', hnodup, hspawns, hlog, heq⟩ := chooseQuests_eq cfg p triggerFrom s
    rw [heq] at hmeets ⊢
    rw [activateQuests_log, hlog] at hmeets
    have hmeet := hmeets _ mem_cons_self
    obtain ⟨hquest, hroom⟩ := hmeet
    obtain ⟨hlow, hgone⟩ := (despawns_id cfg .quest (by decide) p).all h
    obtain ⟨hother, hcount⟩ := clearQuests_spec (p := p) h
    rw [← hspawns] at hlow hgone hother hcount
    have hcleared : Grown cfg p s.spawns s'.spawns :=
      ⟨hlow.balanced, fun x hx => (hother .pool x (by decide)).mpr hx, hlow.count,
        fun hw q hq => (hlow.le q).trans (hw q hq)⟩
    obtain ⟨hgrown, hcount'⟩ := activateQuests_spec rfl (cfg.maxLimit_lt p) hlow.balanced
      (hl.mono (hcleared.key p)) hnodup
      fun quest hq => ⟨hquest quest hq, hgone quest (hquest quest hq)⟩
    refine ⟨hcleared.trans hgrown, ?_⟩
    rw [hcount', hcount]
    exact hroom
  rw [spawnQuests] at hmeets ⊢
  split at hmeets
  · next htrigger =>
    rw [if_pos htrigger]
    dsimp only [PoolMgr.query] at hmeets ⊢
    split at hmeets
    · next hrows =>
      rw [if_pos hrows]
      exact hchoose { s with saved := s.saved.tail } h hl hmeets
    · next hrows =>
      rw [if_neg hrows]
      have hmeet := hmeets _ mem_cons_self
      rw [QuestMeets, if_pos hrows] at hmeet
      obtain ⟨hnodup, hquest, hroom⟩ := hmeet
      obtain ⟨hgrown, hcount⟩ := restoreQuests_spec (cfg.maxLimit_lt p) h hl hnodup hquest
      exact ⟨hgrown, hcount.trans_le hroom⟩
  · next htrigger =>
    rw [if_neg htrigger]
    exact hchoose s h hl hmeets

/-! ## Spawning -/

/-- What any call for a pool may do to the others : `Grown`, except that child pools may have been
despawned. -/
structure Kept (cfg : PoolConfig) (p : ℕ) (d d' : ActivePoolData) : Prop where
  balanced : cfg.Balanced d'
  key : d.isActiveObject .pool p = true → d'.isActiveObject .pool p = true
  count : ∀ q, q ≠ p → cfg.rank p ≤ cfg.rank q → d'.count q = d.count q
  within : (∀ q, cfg.rank q < cfg.rank p → d.count q ≤ cfg.maxLimit q) →
    ∀ q, cfg.rank q < cfg.rank p → d'.count q ≤ cfg.maxLimit q

theorem Kept.trans (h : Kept cfg p d d') (h' : Kept cfg p d' d'') :
    Kept cfg p d d'' where
  balanced := h'.balanced
  key hp := h'.key (h.key hp)
  count q hq hr := (h'.count q hq hr).trans (h.count q hq hr)
  within hw := h'.within (h.within hw)

theorem Grown.kept (h : Grown cfg p d d') : Kept cfg p d d' :=
  ⟨h.balanced, h.key p, h.count, h.within⟩

theorem Lowered.kept (h : Lowered cfg p d d') : Kept cfg p d d' :=
  ⟨h.balanced, (h.key p le_rfl).mpr, h.count, fun hw q hq => (h.le q).trans (hw q hq)⟩

variable {f : ℕ → PoolMgr → PoolMgr}

/-- What is done for a new object : for a pool it is active, and the counter of the mother and the
members of its group stay. -/
def Spawns (cfg : PoolConfig) (f : ℕ → PoolMgr → PoolMgr) (kind : PoolKind) (p : ℕ) : Prop :=
  ∀ g ∈ (cfg.group kind p).guids, ∀ s, cfg.Balanced s.spawns →
    (kind = .pool → s.spawns.isActiveObject .pool g = true) →
    (∀ e ∈ (f g s).log, QuestMeets cfg e) →
    Grown cfg p s.spawns (f g s).spawns ∧ (f g s).spawns.count p = s.spawns.count p ∧
      ∀ x, s.spawns.isActiveObject kind x = true → (f g s).spawns.isActiveObject kind x = true

theorem spawnLoop_log (hlog : ∀ g s, s.log <:+ (f g s).log) (n last triggerFrom : ℕ)
    (s : PoolMgr) : s.log <:+ (cfg.spawnLoop f kind p n last triggerFrom s).log := by
  induction n generalizing last triggerFrom s with
  | zero => exact suffix_rfl
  | succ n ih =>
    obtain ⟨obj, s', hroll⟩ : ∃ obj s',
        (cfg.group kind p).rollOne kind triggerFrom s = (obj, s') := ⟨_, _, rfl⟩
    have hs' : s'.log = s.log := by
      have hsnd := (PoolGroup.rollOne_snd kind triggerFrom (cfg.group kind p) s).2
      rwa [hroll] at hsnd
    rw [spawnLoop, hroll, ← hs']
    dsimp only
    split
    · exact ih _ _ _
    · next g =>
      have hg : s'.log <:+ (f g (s'.activateObject kind g p)).log :=
        hlog g (s'.activateObject kind g p)
      split_ifs
      · exact ih _ _ _
      · exact ih _ _ _
      · exact hg.trans (ih _ _ _)
      · refine hg.trans (List.IsSuffix.trans ?_ (ih _ _ _))
        exact suffix_rfl

/-- The loop of `SpawnObject` raises the counter by a round each at most, and not by the round of
the trigger. -/
theorem spawnLoop_spec (hf : Spawns cfg f kind p) (hlog : ∀ g s, s.log <:+ (f g s).log)
    (hd : Despawns cfg (despawn1Object cfg.despawnPool kind) kind p) {n last : ℕ}
    (h : cfg.Balanced s.spawns) (hl : cfg.Live s.spawns p)
    (ht : triggerFrom ≠ 0 → triggerFrom ∈ (cfg.group kind p).guids ∧
      s.spawns.isActiveObject kind triggerFrom = true)
    (hmeets : ∀ e ∈ (cfg.spawnLoop f kind p n last triggerFrom s).log, QuestMeets cfg e) :
    Kept cfg p s.spawns (cfg.spawnLoop f kind p n last triggerFrom s).spawns ∧
      (triggerFrom = 0 →
        Grown cfg p s.spawns (cfg.spawnLoop f kind p n last triggerFrom s).spawns) ∧
      (cfg.spawnLoop f kind p n last triggerFrom s).spawns.count p ≤
        s.spawns.count p + (n - if triggerFrom = 0 then 0 else 1) := by
  induction n generalizing last triggerFrom s with
  | zero => exact ⟨(Grown.refl h).kept, fun _ => .refl h, Nat.le_add_right _ _⟩
  | succ n ih =>
    obtain ⟨obj, s', hroll⟩ : ∃ obj s',
        (cfg.group kind p).rollOne kind triggerFrom s = (obj, s') := ⟨_, _, rfl⟩
    have hs' : s'.spawns = s.spawns := by
      have hsnd := (PoolGroup.rollOne_snd kind triggerFrom (cfg.group kind p) s).1
      rwa [hroll] at hsnd
    have hmem : ∀ g, obj = some g → g ∈ (cfg.group kind p).guids ∧
        PoolGroup.free s'.spawns kind triggerFrom g = true := fun g hg => by
      rw [hs']
      exact PoolGroup.rollOne_eq_some (by rw [hroll, hg])
    rw [spawnLoop, hroll] at hmeets ⊢
    rw [← hs'] at h hl ht ⊢
    cases obj with
    | none =>
      obtain ⟨hkept, hgrown, hcount⟩ := ih h hl ht hmeets
      exact ⟨hkept, hgrown, hcount.trans (by omega)⟩
    | some g =>
      obtain ⟨hg, hfree⟩ := hmem g rfl
      dsimp only at hmeets ⊢
      by_cases hlast : g = last
      · rw [if_pos hlast] at hmeets ⊢
        obtain ⟨hkept, hgrown, hcount⟩ := ih h hl ht hmeets
        exact ⟨hkept, hgrown, hcount.trans (by omega)⟩
      rw [if_neg hlast] at hmeets ⊢
      by_cases htrigger : g = triggerFrom
      · rw [if_pos htrigger] at hmeets ⊢
        obtain ⟨hkept, hgrown, hcount⟩ := ih h hl (fun h0 => absurd rfl h0) hmeets
        refine ⟨hkept, fun _ => hgrown rfl, hcount.trans ?_⟩
        rw [if_pos rfl]
        split <;> omega
      rw [if_neg htrigger] at hmeets ⊢
      have hi : s'.spawns.isActiveObject kind g = false := by
        rw [PoolGroup.free, Bool.or_eq_true, beq_iff_eq, Bool.not_eq_true'] at hfree
        exact hfree.resolve_left htrigger
      obtain ⟨hact, hone⟩ := h.grown hl hg hi
      have hkey : kind = .pool → (s'.spawns.activateObject kind g p).isActiveObject .pool g =
          true := fun hkind =>
        (ActivePoolData.isActiveObject_activateObject _ _ _ _ _ _).mpr
          (.inr (.inl ⟨hkind.symm, rfl⟩))
      have hspawns := hf g hg (s'.activateObject kind g p) hact.balanced hkey
      generalize f g (s'.activateObject kind g p) = t at hspawns hmeets ⊢
      by_cases hzero : triggerFrom = 0
      · rw [if_pos hzero] at hmeets ⊢
        obtain ⟨hspawn, hsame, -⟩ := hspawns fun e he =>
          hmeets e ((spawnLoop_log hlog n last 0 t).subset he)
        have hboth : Grown cfg p s'.spawns t.spawns := hact.trans hspawn
        obtain ⟨hkept, hgrown, hcount⟩ := ih hboth.balanced (hl.mono (hboth.key p))
          (fun h0 => absurd rfl h0) hmeets
        refine ⟨hboth.kept.trans hkept, fun _ => hboth.trans (hgrown rfl), hcount.trans ?_⟩
        have hcounts : t.spawns.count p = s'.spawns.count p + 1 := hsame.trans hone
        rw [hcounts, if_pos rfl, if_pos hzero]
        omega
      · rw [if_neg hzero] at hmeets ⊢
        obtain ⟨htmem, htact⟩ := ht hzero
        obtain ⟨hspawn, hsame, hstay⟩ := hspawns fun e he =>
          hmeets e ((spawnLoop_log hlog n triggerFrom 0 _).subset he)
        have hboth : Grown cfg p s'.spawns t.spawns := hact.trans hspawn
        have htact' := hstay triggerFrom
          ((ActivePoolData.isActiveObject_activateObject _ _ _ _ _ _).mpr (.inl htact))
        rw [despawnObject_one htmem hzero htact'] at hmeets ⊢
        obtain ⟨hlow, -, hless⟩ := hd.remove htmem hboth.balanced htact'
        obtain ⟨hkept, -, hcount⟩ := ih hlow.balanced
          (hl.mono (hboth.kept.trans hlow.kept).key) (fun h0 => absurd rfl h0) hmeets
        refine ⟨(hboth.kept.trans hlow.kept).trans hkept, fun h0 => absurd h0 hzero,
          hcount.trans ?_⟩
        have hcounts : t.spawns.count p = s'.spawns.count p + 1 := hsame.trans hone
        rw [if_pos rfl, if_neg hzero, PoolMgr.withSpawns_spawns]
        omega

theorem rounds_le {count : ℕ} (h : count ≤ limit) (triggerFrom : ℕ) :
    rounds limit count triggerFrom ≤ limit - count + if triggerFrom = 0 then 0 else 1 := by
  unfold rounds toI32
  split <;> omega

/-- `SpawnObject`, whose trigger is none or an active member, ends within the limit. -/
theorem spawnObject_spec (hf : Spawns cfg f kind p) (hlog : ∀ g s, s.log <:+ (f g s).log)
    (h : cfg.Balanced s.spawns) (hl : cfg.Live s.spawns p)
    (ht : triggerFrom ≠ 0 → triggerFrom ∈ (cfg.group kind p).guids ∧
      s.spawns.isActiveObject kind triggerFrom = true)
    (hmeets : ∀ e ∈ (cfg.spawnObject f kind p triggerFrom s).log, QuestMeets cfg e) :
    Kept cfg p s.spawns (cfg.spawnObject f kind p triggerFrom s).spawns ∧
      (triggerFrom = 0 →
        Grown cfg p s.spawns (cfg.spawnObject f kind p triggerFrom s).spawns) ∧
      (s.spawns.count p ≤ cfg.maxLimit p →
        (cfg.spawnObject f kind p triggerFrom s).spawns.count p ≤ cfg.maxLimit p) := by
  have hd : Despawns cfg (despawn1Object cfg.despawnPool kind) kind p :=
    despawns_of (fun g _ d hd => despawnPool_spec g hd) kind
  obtain ⟨hkept, hgrown, hcount⟩ := spawnLoop_spec hf hlog hd h hl ht hmeets
  refine ⟨hkept, hgrown, fun hle => hcount.trans ?_⟩
  have hrounds := rounds_le hle triggerFrom
  omega

/-- What spawning in a pool does : it is `Grown`, and stays within its limit. -/
structure Spawned (cfg : PoolConfig) (p : ℕ) (d d' : ActivePoolData) : Prop where
  grown : Grown cfg p d d'
  limit : d.count p ≤ cfg.maxLimit p → d'.count p ≤ cfg.maxLimit p

theorem Spawned.trans (h : Spawned cfg p d d') (h' : Spawned cfg p d' d'') : Spawned cfg p d d'' :=
  ⟨h.grown.trans h'.grown, fun hle => h'.limit (h.limit hle)⟩

/-- Spawning a child pool, as its mother sees it. -/
theorem Spawned.child {child : ℕ} (h : Spawned cfg child d d') (hlt : cfg.rank child < cfg.rank p) :
    Grown cfg p d d' ∧ d'.count p = d.count p := by
  have hcount : ∀ q, cfg.rank p ≤ cfg.rank q → d'.count q = d.count q := fun q hq =>
    h.grown.count q (ne_of_apply_ne cfg.rank (hlt.trans_le hq).ne') (hlt.le.trans hq)
  refine ⟨⟨h.grown.balanced, h.grown.key, fun q _ => hcount q, fun hw q hq => ?_⟩,
    hcount p le_rfl⟩
  rcases lt_or_ge (cfg.rank q) (cfg.rank child) with hlow | hhigh
  · exact h.grown.within (fun r hr => hw r (hr.trans hlt)) q hlow
  · rcases eq_or_ne q child with rfl | hne
    · exact h.limit (hw q hq)
    · rw [h.grown.count q hne hhigh]
      exact hw q hq

theorem spawns_of (h : ∀ g ∈ (cfg.group .pool p).guids, ∀ s, cfg.Balanced s.spawns →
    cfg.Live s.spawns g → (∀ e ∈ (cfg.spawnPool g s).log, QuestMeets cfg e) →
    Spawned cfg g s.spawns (cfg.spawnPool g s).spawns) (kind : PoolKind) :
    Spawns cfg (spawn1Object cfg.spawnPool kind) kind p := by
  intro g hg s hs hkey hmeets
  rw [spawn1Object] at hmeets ⊢
  split at hmeets
  · next hkind =>
    subst hkind
    obtain ⟨hgrown, hsame⟩ := (h g hg s hs (.inr (hkey rfl)) hmeets).child (cfg.rank_lt hg)
    exact ⟨hgrown, hsame, hgrown.key⟩
  · next hkind =>
    rw [if_neg hkind]
    exact ⟨.refl hs, rfl, fun _ => id⟩

theorem spawnGroup_log {f : ℕ → PoolMgr → PoolMgr} (hlog : ∀ g s, s.log <:+ (f g s).log)
    (p triggerFrom : ℕ) (s : PoolMgr) (kind : PoolKind) :
    s.log <:+ (cfg.spawnGroup f p triggerFrom s kind).log := by
  rw [spawnGroup]
  split_ifs
  · exact suffix_rfl
  · exact spawnQuests_log p triggerFrom s
  · refine spawnLoop_log (fun g s => ?_) _ _ _ s
    rw [spawn1Object]
    split
    · exact hlog g s
    · exact suffix_rfl

theorem spawnPoolFuel_log (n p : ℕ) (s : PoolMgr) : s.log <:+ (cfg.spawnPoolFuel n p s).log := by
  induction n generalizing p s with
  | zero => exact suffix_rfl
  | succ n ih =>
    exact (((spawnGroup_log ih p 0 _ _).trans (spawnGroup_log ih p 0 _ _)).trans
      (spawnGroup_log ih p 0 _ _)).trans (spawnGroup_log ih p 0 _ _)

theorem spawnPool_log (p : ℕ) (s : PoolMgr) : s.log <:+ (cfg.spawnPool p s).log :=
  spawnPoolFuel_log _ p s

/-- One kind of members, triggered by none or an active one. -/
theorem spawnGroup_spec (hf : Spawns cfg (spawn1Object cfg.spawnPool kind) kind p)
    (h : cfg.Balanced s.spawns) (hl : cfg.Live s.spawns p)
    (ht : kind ≠ .quest → triggerFrom ≠ 0 → triggerFrom ∈ (cfg.group kind p).guids ∧
      s.spawns.isActiveObject kind triggerFrom = true)
    (hmeets : ∀ e ∈ (cfg.spawnGroup cfg.spawnPool p triggerFrom s kind).log, QuestMeets cfg e) :
    Kept cfg p s.spawns (cfg.spawnGroup cfg.spawnPool p triggerFrom s kind).spawns ∧
      (triggerFrom = 0 →
        Grown cfg p s.spawns (cfg.spawnGroup cfg.spawnPool p triggerFrom s kind).spawns) ∧
      (s.spawns.count p ≤ cfg.maxLimit p →
        (cfg.spawnGroup cfg.spawnPool p triggerFrom s kind).spawns.count p ≤ cfg.maxLimit p) := by
  rw [spawnGroup] at hmeets ⊢
  split_ifs at hmeets ⊢ with hempty hquest
  · exact ⟨(Grown.refl h).kept, fun _ => .refl h, id⟩
  · obtain ⟨hgrown, hcount⟩ := spawnQuests_spec h hl hmeets
    exact ⟨hgrown.kept, fun _ => hgrown, fun _ => hcount⟩
  · refine spawnObject_spec hf (fun g s => ?_) h hl (ht hquest) hmeets
    rw [spawn1Object]
    split
    · exact spawnPool_log g s
    · exact suffix_rfl

/-- `SpawnPool` on a live pool. -/
theorem spawnPool_spec (p : ℕ) (h : cfg.Balanced s.spawns) (hl : cfg.Live s.spawns p)
    (hmeets : ∀ e ∈ (cfg.spawnPool p s).log, QuestMeets cfg e) :
    Spawned cfg p s.spawns (cfg.spawnPool p s).spawns := by
  induction hr : cfg.rank p using Nat.strong_induction_on generalizing p s with
  | _ r ih =>
    subst hr
    have hspawns := spawns_of fun g hg s hs hlive hmeets =>
      ih _ (cfg.rank_lt hg) g hs hlive hmeets rfl
    have hgroup : ∀ kind (s : PoolMgr), cfg.Balanced s.spawns → cfg.Live s.spawns p →
        (∀ e ∈ (cfg.spawnGroup cfg.spawnPool p 0 s kind).log, QuestMeets cfg e) →
        Spawned cfg p s.spawns (cfg.spawnGroup cfg.spawnPool p 0 s kind).spawns :=
      fun kind s h hl hmeets => by
        obtain ⟨-, hgrown, hlimit⟩ :=
          spawnGroup_spec (hspawns kind) h hl (fun _ h0 => absurd rfl h0) hmeets
        exact ⟨hgrown rfl, hlimit⟩
    have hlog : ∀ s kind, s.log <:+ (cfg.spawnGroup cfg.spawnPool p 0 s kind).log :=
      spawnGroup_log spawnPool_log p 0
    rw [spawnPool_eq] at hmeets ⊢
    have hmeets3 := fun e he => hmeets e ((hlog _ .quest).subset he)
    have hmeets2 := fun e he => hmeets3 e ((hlog _ .creature).subset he)
    have hmeets1 := fun e he => hmeets2 e ((hlog _ .gameobject).subset he)
    have h1 := hgroup .pool s h hl hmeets1
    have hl1 := hl.mono (h1.grown.key p)
    have h2 := hgroup .gameobject _ h1.grown.balanced hl1 hmeets2
    have hl2 := hl1.mono (h2.grown.key p)
    have h3 := hgroup .creature _ h2.grown.balanced hl2 hmeets3
    have h4 := hgroup .quest _ h3.grown.balanced (hl2.mono (h3.grown.key p)) hmeets
    exact ((h1.trans h2).trans h3).trans h4

/-! ## Calls -/

/-- Every counter is the number of active members, and within the limit. -/
structure Sound (cfg : PoolConfig) (d : ActivePoolData) : Prop where
  balanced : cfg.Balanced d
  limit : ∀ p, d.count p ≤ cfg.maxLimit p

theorem Sound.of_kept (h : Sound cfg d) (hkept : Kept cfg p d d')
    (hlimit : d'.count p ≤ cfg.maxLimit p) : Sound cfg d' := by
  refine ⟨hkept.balanced, fun q => ?_⟩
  rcases lt_or_ge (cfg.rank q) (cfg.rank p) with hlow | hhigh
  · exact hkept.within (fun r _ => h.limit r) q hlow
  · rcases eq_or_ne q p with rfl | hne
    · exact hlimit
    · rw [hkept.count q hne hhigh]
      exact h.limit q

theorem spawns_spawnPool (kind : PoolKind) (p : ℕ) :
    Spawns cfg (spawn1Object cfg.spawnPool kind) kind p :=
  spawns_of (fun g _ _ hs hl hmeets => spawnPool_spec g hs hl hmeets) kind

theorem Sound.spawnGroup (hs : Sound cfg d) (hd : s.spawns = d) (hl : cfg.Live s.spawns p)
    (ht : kind ≠ .quest → triggerFrom ≠ 0 → triggerFrom ∈ (cfg.group kind p).guids ∧
      s.spawns.isActiveObject kind triggerFrom = true)
    (hmeets : ∀ e ∈ (cfg.spawnGroup cfg.spawnPool p triggerFrom s kind).log, QuestMeets cfg e) :
    Sound cfg (cfg.spawnGroup cfg.spawnPool p triggerFrom s kind).spawns := by
  subst hd
  obtain ⟨hkept, -, hlimit⟩ :=
    spawnGroup_spec (spawns_spawnPool kind p) hs.balanced hl ht hmeets
  exact hs.of_kept hkept (hlimit (hs.limit p))

/-- `UpdatePool` on a live pool, by an active member or for its quests. -/
theorem Sound.updatePool (hs : Sound cfg s.spawns) {guid : ℕ} (hl : cfg.Live s.spawns p)
    (ht : kind ≠ .quest → guid ∈ (cfg.group kind p).guids ∧
      s.spawns.isActiveObject kind guid = true)
    (hmeets : ∀ e ∈ (cfg.updatePool kind p guid s).log, QuestMeets cfg e) :
    Sound cfg (cfg.updatePool kind p guid s).spawns := by
  rw [PoolConfig.updatePool] at hmeets ⊢
  split_ifs at hmeets ⊢ with hmother
  · obtain ⟨mother, hm⟩ : ∃ mother, cfg.mother p = some mother :=
      ne_none_iff_exists'.mp fun hnone => hmother (by rw [hnone, getD_none])
    rw [hm, getD_some] at hmeets ⊢
    have hchild := cfg.mother_iff.mp hm
    have hactive := hl.active hchild
    exact hs.spawnGroup rfl (.inr (hs.balanced.active_pool hchild hactive))
      (fun _ _ => ⟨hchild, hactive⟩) hmeets
  · exact hs.spawnGroup rfl hl (fun hkind _ => ht hkind) hmeets

theorem updatePool_log (kind : PoolKind) (p guid : ℕ) (s : PoolMgr) :
    s.log <:+ (cfg.updatePool kind p guid s).log := by
  rw [PoolConfig.updatePool]
  split
  · exact spawnGroup_log spawnPool_log _ _ _ _
  · exact spawnGroup_log spawnPool_log _ _ _ _

theorem Sound.changeQuests {pools : List ℕ} (hs : Sound cfg s.spawns)
    (hl : Along cfg.changeQuests (fun s p => cfg.Live s.spawns p) s pools)
    (hmeets : ∀ e ∈ (pools.foldl cfg.changeQuests s).log, QuestMeets cfg e) :
    Sound cfg (pools.foldl cfg.changeQuests s).spawns := by
  have hlog : ∀ (pools : List ℕ) (s : PoolMgr), s.log <:+ (pools.foldl cfg.changeQuests s).log := by
    intro pools
    induction pools with
    | nil => exact fun s => suffix_rfl
    | cons p pools ih => exact fun s => (updatePool_log .quest p 1 s).trans (ih _)
  induction pools generalizing s with
  | nil => exact hs
  | cons p pools ih =>
    refine ih (hs.updatePool hl.1 (fun h => absurd rfl h) fun e he => ?_) hl.2 hmeets
    exact hmeets e ((hlog pools _).subset he)

instance (cfg : PoolConfig) (e : QuestSpawn) : Decidable (QuestMeets cfg e) := by
  delta QuestMeets
  infer_instance

/-- The calls of the game : a member asks for its respawn while it is active. -/
def Permitted (cfg : PoolConfig) (s : PoolMgr) : Call → Prop
  | .updatePool kind p guid =>
    guid ∈ (cfg.group kind p).guids ∧ s.spawns.isActiveObject kind guid = true
  | _ => True

/-- Pools are spawned, and their quests changed, when they have no mother or are active in it. -/
def LiveCall (cfg : PoolConfig) (s : PoolMgr) : Call → Prop
  | .spawnPool p => cfg.Live s.spawns p
  | .changeDailyQuests => Along cfg.changeQuests (fun s p => cfg.Live s.spawns p) s
      (cfg.changedPools PoolQuest.isWeekly)
  | .changeWeeklyQuests => Along cfg.changeQuests (fun s p => cfg.Live s.spawns p) s
      (cfg.changedPools PoolQuest.isDaily)
  | _ => True

/-- A call that keeps count. -/
structure Meets (cfg : PoolConfig) (s : PoolMgr) (call : Call) : Prop where
  permitted : cfg.Permitted s call
  live : cfg.LiveCall s call
  quests : ∀ e ∈ (cfg.step s call).log, QuestMeets cfg e

theorem Sound.step (hs : Sound cfg s.spawns) {call : Call} (h : cfg.Meets s call) :
    Sound cfg (cfg.step s call).spawns := by
  obtain ⟨hpermitted, hlive, hquests⟩ := h
  cases call with
  | spawnPool p =>
    have hspawned := spawnPool_spec p hs.balanced hlive hquests
    exact hs.of_kept hspawned.grown.kept (hspawned.limit (hs.limit p))
  | despawnPool p =>
    have hlow := (despawnPool_spec p hs.balanced).1
    exact hs.of_kept hlow.kept ((hlow.le p).trans (hs.limit p))
  | updatePool kind p guid =>
    have hactive := hs.balanced.active_pool hpermitted.1 hpermitted.2
    exact hs.updatePool (.inr hactive) (fun _ => hpermitted) hquests
  | changeDailyQuests | changeWeeklyQuests => exact hs.changeQuests hlive hquests

variable (cfg) in
/-- Nothing is spawned before the first call. -/
theorem sound_empty : Sound cfg {} :=
  ⟨fun _ => (active_eq_zero fun k _ _ => by cases k <;> rfl).symm, fun _ => Nat.zero_le _⟩

end PoolConfig

open PoolConfig

/-- Before any pool has spawned. -/
def PoolMgr.start (chances : List ℚ) (picks : List ℕ) (saved : List (List ℕ)) : PoolMgr :=
  { chances, picks, saved }

/-- With calls on live pools, and choices of quests that keep count, every counter is the number of
active members and within the limit. -/
theorem accounted_run (cfg : PoolConfig) (chances : List ℚ) (picks : List ℕ)
    (saved : List (List ℕ)) (calls : List Call)
    (hmeets : Along cfg.step cfg.Meets (PoolMgr.start chances picks saved) calls) (p : ℕ) :
    (run cfg.step (PoolMgr.start chances picks saved) calls).spawns.count p =
        cfg.active (run cfg.step (PoolMgr.start chances picks saved) calls).spawns p ∧
      (run cfg.step (PoolMgr.start chances picks saved) calls).spawns.count p ≤
        cfg.maxLimit p := by
  have hstep : ∀ s call, Sound cfg s.spawns → cfg.Meets s call →
      Sound cfg (cfg.step s call).spawns := fun _ _ hs h => hs.step h
  have hsound : Sound cfg (run cfg.step (PoolMgr.start chances picks saved) calls).spawns :=
    invariant_run hstep (sound_empty cfg) hmeets
  exact ⟨hsound.balanced p, hsound.limit p⟩

/-- A pool of one of two child pools : one of creatures, and one of a game object and a daily
quest. -/
def motherPool : PoolConfig where
  maxPoolId := 3
  maxLimit p := if p = 1 then 1 else 2
  group kind p :=
    if kind = .pool ∧ p = 1 then { equalChanced := [⟨2, 0⟩, ⟨3, 0⟩] }
    else if kind = .creature ∧ p = 2 then { equalChanced := [⟨5, 0⟩, ⟨6, 0⟩, ⟨7, 0⟩] }
    else if kind = .gameobject ∧ p = 3 then { equalChanced := [⟨8, 0⟩] }
    else if kind = .quest ∧ p = 3 then { equalChanced := [⟨9, 0⟩] }
    else {}
  mother p := if p = 2 ∨ p = 3 then some 1 else none
  questTemplate quest := if quest = 9 then some ⟨true, false⟩ else none
  rank p := if p = 1 then 1 else 0
  maxLimit_lt p := by split <;> omega
  nodup kind p := by split_ifs <;> decide
  unique {kind p q g} hp hq := by
    split_ifs at hp hq <;> simp_all [PoolGroup.guids]
  mother_iff {child p} := by
    split_ifs <;> simp_all [PoolGroup.guids, eq_comm]
  rank_lt {child p} h := by
    split_ifs at h <;> simp_all [PoolGroup.guids]
    all_goals rcases h with rfl | rfl <;> simp

/-- The creatures are spawned, and one of them asks for its respawn, for which the pool of the quest
is spawned instead; then the day changes. -/
theorem accounted_run_motherPool : (run motherPool.step (PoolMgr.start [] [0, 0, 1, 1] [[]])
      [.spawnPool 1, .updatePool .creature 2 5, .changeDailyQuests]).spawns.count 1 =
        motherPool.active (run motherPool.step (PoolMgr.start [] [0, 0, 1, 1] [[]])
          [.spawnPool 1, .updatePool .creature 2 5, .changeDailyQuests]).spawns 1 ∧
      (run motherPool.step (PoolMgr.start [] [0, 0, 1, 1] [[]])
        [.spawnPool 1, .updatePool .creature 2 5, .changeDailyQuests]).spawns.count 1 ≤
          motherPool.maxLimit 1 := by
  refine accounted_run motherPool [] [0, 0, 1, 1] [[]]
    [.spawnPool 1, .updatePool .creature 2 5, .changeDailyQuests]
    ⟨⟨trivial, .inl rfl, ?_⟩, ⟨?_, trivial, ?_⟩, ⟨trivial, ?_, ?_⟩, trivial⟩ 1
  · decide +kernel
  · exact ⟨by decide +kernel, by decide +kernel⟩
  · decide +kernel
  · exact ⟨.inr (by decide +kernel), trivial⟩
  · decide +kernel

/-- Two pools of a daily quest each. -/
def twoPools : PoolConfig where
  maxPoolId := 2
  maxLimit _ := 1
  group kind p :=
    if kind = .quest ∧ p = 1 then { equalChanced := [⟨10, 0⟩] }
    else if kind = .quest ∧ p = 2 then { equalChanced := [⟨20, 0⟩] }
    else {}
  mother _ := none
  questTemplate quest := if quest = 10 ∨ quest = 20 then some ⟨true, false⟩ else none
  rank _ := 0
  maxLimit_lt _ := by decide
  nodup kind p := by split_ifs <;> decide
  unique {kind p q g} hp hq := by
    split_ifs at hp hq <;> simp_all [PoolGroup.guids]
  mother_iff {child p} := by
    split_ifs <;> simp_all [PoolGroup.guids]
  rank_lt {child p} h := by
    split_ifs at h <;> simp_all [PoolGroup.guids]

/-- When the day changes, the first pool recycles the quest of the second one. -/
theorem not_accounted_twoPools : ¬∀ (cfg : PoolConfig) (chances : List ℚ) (picks : List ℕ)
    (saved : List (List ℕ)) (calls : List Call),
    Along cfg.step cfg.Permitted (PoolMgr.start chances picks saved) calls → ∀ p,
      (run cfg.step (PoolMgr.start chances picks saved) calls).spawns.count p =
          cfg.active (run cfg.step (PoolMgr.start chances picks saved) calls).spawns p ∧
        (run cfg.step (PoolMgr.start chances picks saved) calls).spawns.count p ≤
          cfg.maxLimit p := by
  intro h
  have hcount := (h twoPools [] [] [] [.spawnPool 1, .spawnPool 2, .changeDailyQuests]
    ⟨trivial, trivial, trivial, trivial⟩ 1).1
  exact absurd hcount (by decide +kernel)

end MistyWorld
