import MistyWorld.Word
import Mathlib.Data.List.Perm.Basic
import Mathlib.Data.List.Nodup

/-!
# A pool of ids

Ids are handed out from a queue of returned ones, and when it is empty by raising a 64-bit
counter. A returned id that is the greatest one lowers the counter, any other goes to the queue.
`Serves p live` says that the pool `p` is in order for the ids `live` that are in use : an id
that it hands out is then not in use (`Serves.take`), and it stays in order when an id in use is
returned (`Serves.release`).
-/

open List Word

structure IdPool where
  free : List ℕ := []
  maxId : ℕ := 0
  deriving DecidableEq, Repr

namespace IdPool

/-- Hand out an id. -/
def take (p : IdPool) : ℕ × IdPool :=
  match p.free with
  | [] => (toU64 (p.maxId + 1 : ℕ), { p with maxId := toU64 (p.maxId + 1 : ℕ) })
  | id :: rest => (id, { p with free := rest })

/-- Return an id. -/
def release (p : IdPool) (id : ℕ) : IdPool :=
  if id = p.maxId then { p with maxId := toU64 (p.maxId - 1 : ℤ) }
  else { p with free := p.free ++ [id] }

/-- The pool after a table of ids is loaded : the ids below the greatest one that are not in the
table are free. -/
def load (ids : List ℕ) : IdPool where
  free := (List.range' 1 (ids.foldl max 0 - 1)).filter (· ∉ ids)
  maxId := ids.foldl max 0

/-- The pool is in order for the ids `live` in use. -/
structure Serves (p : IdPool) (live : List ℕ) : Prop where
  live_nodup : live.Nodup
  free_nodup : p.free.Nodup
  apart : ∀ id ∈ p.free, id ∉ live
  live_le : ∀ id ∈ live, id ≤ p.maxId
  free_le : ∀ id ∈ p.free, id ≤ p.maxId
  maxId_lt : p.maxId < 2 ^ 64

/-- An id can be handed out : one is free, the counter can be raised, or none is in use. -/
def Room (p : IdPool) (live : List ℕ) : Prop :=
  p.free ≠ [] ∨ p.maxId + 1 < 2 ^ 64 ∨ live = []

instance (p : IdPool) (live : List ℕ) : Decidable (p.Room live) :=
  inferInstanceAs (Decidable (_ ∨ _ ∨ _))

variable {p : IdPool} {live live' : List ℕ} {id : ℕ}

theorem Serves.mono (h : Serves p live) (hsub : live'.Sublist live) : Serves p live' where
  live_nodup := h.live_nodup.sublist hsub
  free_nodup := h.free_nodup
  apart := fun id hid hlive => h.apart id hid (hsub.subset hlive)
  live_le := fun id hid => h.live_le id (hsub.subset hid)
  free_le := h.free_le
  maxId_lt := h.maxId_lt

theorem Serves.perm (h : Serves p live) (hperm : live.Perm live') : Serves p live' where
  live_nodup := hperm.nodup_iff.1 h.live_nodup
  free_nodup := h.free_nodup
  apart := fun id hid hlive => h.apart id hid (hperm.mem_iff.2 hlive)
  live_le := fun id hid => h.live_le id (hperm.mem_iff.2 hid)
  free_le := h.free_le
  maxId_lt := h.maxId_lt

/-- The id that is handed out is not in use. -/
theorem Serves.take (h : Serves p live) (hroom : p.Room live) :
    p.take.1 ∉ live ∧ Serves p.take.2 (p.take.1 :: live) := by
  obtain ⟨free, maxId⟩ := p
  cases free with
  | nil =>
    have hlt := toU64_lt ((maxId + 1 : ℕ) : ℤ)
    have hnew : ∀ id ∈ live, id < toU64 ((maxId + 1 : ℕ) : ℤ) := by
      intro id hid
      have hle : id ≤ maxId := h.live_le id hid
      rcases hroom with hroom | hroom | hroom
      · exact absurd rfl hroom
      · have hroom : maxId + 1 < 2 ^ 64 := hroom
        rw [toU64_of_lt hroom]
        omega
      · rw [hroom] at hid
        cases hid
    have hfresh : toU64 ((maxId + 1 : ℕ) : ℤ) ∉ live := fun hmem => lt_irrefl _ (hnew _ hmem)
    refine ⟨hfresh, ?_⟩
    exact
      { live_nodup := nodup_cons.2 ⟨hfresh, h.live_nodup⟩
        free_nodup := nodup_nil
        apart := fun _ hid => absurd hid not_mem_nil
        live_le := fun id hid => (mem_cons.1 hid).elim (fun heq => heq.le)
          fun hid => (hnew id hid).le
        free_le := fun _ hid => absurd hid not_mem_nil
        maxId_lt := hlt }
  | cons id rest =>
    have hfresh : id ∉ live := h.apart id mem_cons_self
    obtain ⟨hid, hrest⟩ := nodup_cons.1 h.free_nodup
    refine ⟨hfresh, ?_⟩
    exact
      { live_nodup := nodup_cons.2 ⟨hfresh, h.live_nodup⟩
        free_nodup := hrest
        apart := fun a ha hmem => (mem_cons.1 hmem).elim
          (fun heq : a = id => hid (heq ▸ ha)) (h.apart a (mem_cons_of_mem id ha))
        live_le := fun a ha => (mem_cons.1 ha).elim
          (fun heq : a = id => heq ▸ h.free_le id mem_cons_self) (h.live_le a)
        free_le := fun a ha => h.free_le a (mem_cons_of_mem id ha)
        maxId_lt := h.maxId_lt }

/-- An id in use is returned. -/
theorem Serves.release (h : Serves p (id :: live)) : Serves (p.release id) live := by
  obtain ⟨hid, hlive⟩ := nodup_cons.1 h.live_nodup
  have hle := h.live_le id mem_cons_self
  have hlt := h.maxId_lt
  have hfree : ∀ a ∈ p.free, a ≠ id := fun a ha heq => h.apart a ha (heq ▸ mem_cons_self)
  rw [IdPool.release]
  split
  · rename_i hmax
    have hlower : ∀ a, a ≤ p.maxId → a ≠ id → a ≤ toU64 (p.maxId - 1 : ℤ) := by
      intro a ha hne
      have hpred : ((p.maxId : ℤ) - 1) = ((p.maxId - 1 : ℕ) : ℤ) := by omega
      rw [hpred, toU64_of_lt (by omega)]
      omega
    exact
      { live_nodup := hlive
        free_nodup := h.free_nodup
        apart := fun a ha hmem => h.apart a ha (mem_cons_of_mem id hmem)
        live_le := fun a ha => hlower a (h.live_le a (mem_cons_of_mem id ha))
          fun heq => hid (heq ▸ ha)
        free_le := fun a ha => hlower a (h.free_le a ha) (hfree a ha)
        maxId_lt := toU64_lt _ }
  · exact
      { live_nodup := hlive
        free_nodup := nodup_append'.2 ⟨h.free_nodup, nodup_singleton id,
          disjoint_singleton.2 fun ha => hfree id ha rfl⟩
        apart := fun a ha hmem => (mem_append.1 ha).elim
          (fun ha => h.apart a ha (mem_cons_of_mem id hmem))
          fun ha => hid (mem_singleton.1 ha ▸ hmem)
        live_le := fun a ha => h.live_le a (mem_cons_of_mem id ha)
        free_le := fun a ha => (mem_append.1 ha).elim (h.free_le a)
          fun ha => (mem_singleton.1 ha).le.trans hle
        maxId_lt := hlt }

/-- Ids in use are returned one after the other. -/
theorem Serves.releaseAll : ∀ {ids : List ℕ} {p : IdPool}, Serves p (ids ++ live) →
    Serves (ids.foldl IdPool.release p) live
  | [], _, h => h
  | _ :: _, _, h => h.release.releaseAll

theorem le_foldl_max : ∀ (ids : List ℕ) (start : ℕ),
    start ≤ ids.foldl max start ∧ ∀ id ∈ ids, id ≤ ids.foldl max start
  | [], start => ⟨le_rfl, fun _ hid => absurd hid not_mem_nil⟩
  | a :: ids, start => by
    obtain ⟨hstart, hids⟩ := le_foldl_max ids (max start a)
    refine ⟨(le_max_left start a).trans hstart, fun id hid => ?_⟩
    rcases mem_cons.1 hid with rfl | hid
    · exact (le_max_right start id).trans hstart
    · exact hids id hid

theorem foldl_max_lt {bound : ℕ} : ∀ {ids : List ℕ} {start : ℕ}, start < bound →
    (∀ id ∈ ids, id < bound) → ids.foldl max start < bound
  | [], _, h, _ => h
  | a :: ids, start, h, hids => by
    rw [foldl_cons]
    exact foldl_max_lt (max_lt h (hids a mem_cons_self))
      fun id hid => hids id (mem_cons_of_mem a hid)

/-- The pool of a loaded table of distinct ids is in order for them. -/
theorem serves_load {ids : List ℕ} (hnodup : ids.Nodup) (hlt : ∀ id ∈ ids, id < 2 ^ 64) :
    Serves (load ids) ids where
  live_nodup := hnodup
  free_nodup := (@nodup_range' _ _ 1 Nat.one_pos).filter _
  apart := fun id hid => by simpa using (mem_filter.1 hid).2
  live_le := fun id hid => (le_foldl_max ids 0).2 id hid
  free_le := fun id hid => by
    have := mem_range'_1.1 (mem_filter.1 hid).1
    rw [load]
    dsimp only
    omega
  maxId_lt := foldl_max_lt (by decide) hlt

end IdPool
