import MistyWorld.Auction
import MistyWorld.GuildBank
import MistyWorld.Resale

/-!
# Putting items up for auction

`HandleAuctionSellItem` checks each pair of a guid and a count on its own, against the stack as it
is when the packet comes. A single pair that asks for a whole stack moves the item itself to the
auction house. Otherwise the first item is cloned with the sum of all counts, and a second loop
takes each count from its stack.

The clone is of the first item whatever the others are, and a stack that is listed twice is not
checked again when it has already shrunk : then it wraps around in 32 bits, or is gone before all
its counts are taken (`takeAll_cases`). So the units are conserved exactly if all listed items are
of one entry and no stack is asked for more than it has (`auctionSell_conserved_iff`).
-/

open Function List Word Finset

namespace MistyWorld

/-- `MAX_AUCTION_ITEMS`. -/
def maxAuctionItems : ℕ := 160

/-- `MIN_AUCTION_TIME`. -/
def minAuctionTime : ℕ := 12 * 3600

/-- `CMSG_AUCTION_SELL_ITEM` : the guids with their counts, and the terms. -/
structure SellPacket where
  pairs : List (ℕ × ℕ)
  bid : ℕ
  buyout : ℕ
  etime : ℕ

/-- The player and the auctioneer he is at. -/
structure AuctionVisit where
  mover : Mover
  /-- The auctioneer is there, deals with the player and has an `AuctionHouseEntry`. -/
  auctioneer : Bool := true
  /-- `etime` times `RATE_AUCTION_TIME`. -/
  auctionTime : ℕ → ℕ := id
  /-- `AuctionHouseMgr::GetAuctionDeposit`, for a time, an item and a count. -/
  getAuctionDeposit : ℕ → Item → ℕ → ℕ := fun _ _ _ => 0
  cutPercent : ℕ := 5
  now : ℕ := 0

/-- What a player has, and the items and auctions of the auction house. -/
structure AuctionSeller where
  inv : Inventory
  money : ℕ
  /-- `mAitems` of `AuctionHouseMgr`. -/
  aItems : List Item := []
  auctions : List AuctionEntry := []
  nextAuctionID : ℕ := 1

/-- An item of the packet : its position, itself, and the count that is asked for. -/
structure SellItem where
  pos : Pos
  item : Item
  count : ℕ

/-- Take a count from the item at a position : the item goes if that is all of it. An item that was
removed before has no position any more. -/
def Inventory.takeCount (env : ItemEnv) (inv : Inventory) (pos : Pos) (count : ℕ) : Inventory :=
  match inv.getItemByPos env pos with
  | none => inv
  | some it =>
    if it.count = count then inv.removeItem env pos
    else inv.put env pos (some { it with count := toU32 (it.count - count : ℤ) })

namespace AuctionSeller

variable (env : ItemEnv) (visit : AuctionVisit) (s : AuctionSeller)

/-- The checks of one pair of the packet. -/
def sellItem (x : ℕ × ℕ) : Except AuctionError SellItem :=
  match s.inv.getItemByGuid env x.1 with
  | none => .error .itemNotFound
  | some (pos, it) =>
    if s.aItems.any (fun a => a.guid = it.guid) || !it.canBeTraded env s.inv visit.mover pos ||
        s.inv.isNotEmptyBag env it || (env.template it.entry).any ItemTemplate.conjured ||
        it.expiration ≠ 0 || it.count < x.2 then
      .error .databaseError
    else .ok ⟨pos, it, x.2⟩

/-- The item is put under auction and the deposit is paid. -/
def addAuction (packet : SellPacket) (deposit : ℕ) (it : Item) (inv : Inventory) :
    AuctionSeller where
  inv := inv
  money := Seller.gold s.money (toI32 (-toI32 deposit))
  aItems := it :: s.aItems
  auctions :=
    { id := s.nextAuctionID
      itemGUIDLow := it.guid
      itemEntry := it.entry
      itemCount := it.count
      owner := s.inv.owner
      startbid := toU32 packet.bid
      bid := 0
      buyout := toU32 packet.buyout
      expireTime := visit.now + visit.auctionTime (toU32 (packet.etime * 60 : ℕ))
      bidder := 0
      deposit := deposit
      cutPercent := visit.cutPercent } :: s.auctions
  nextAuctionID := s.nextAuctionID + 1

/-- The sum of the counts. -/
def finalCount (items : List SellItem) : ℕ :=
  (items.map SellItem.count).sum

/-- The auction of the listed items, the first of which is `item`. -/
def createAuction (packet : SellPacket) (deposit : ℕ) (item : SellItem) (items : List SellItem) :
    Except (Option AuctionError) AuctionSeller :=
  if items.length = 1 ∧ item.item.count = item.count then
    .ok (s.addAuction visit packet deposit item.item (s.inv.removeItem env item.pos))
  else
    match s.inv.cloneItem env item.item (finalCount items) with
    | none => .error (some .databaseError)
    | some (new, inv) =>
      .ok (s.addAuction visit packet deposit new
        (items.foldl (fun inv y => inv.takeCount env y.pos y.count) inv))

/-- `WorldSession::HandleAuctionSellItem`. An error is what the client is told, if anything. -/
def handleAuctionSellItem (packet : SellPacket) : Except (Option AuctionError) AuctionSeller :=
  if maxAuctionItems < packet.pairs.length then .error (some .databaseError)
  else if packet.pairs.any fun x => x.1 = 0 || x.2 = 0 || 1000 < x.2 then .error none
  else if packet.bid = 0 ∨ packet.etime = 0 then .error none
  else if maxMoneyAmount < packet.bid ∨ maxMoneyAmount < packet.buyout then
    .error (some .databaseError)
  else if !visit.auctioneer then .error none
  else if toU32 (packet.etime * 60 : ℕ) ∉
      [1 * minAuctionTime, 2 * minAuctionTime, 4 * minAuctionTime] then .error none
  else
    match packet.pairs.mapM (s.sellItem env visit) with
    | .error e => .error (some e)
    -- `finalCount` is zero
    | .ok [] => .error (some .databaseError)
    | .ok (item :: rest) =>
      let items := item :: rest
      if items.any fun y => env.getMaxStackCount y.item < finalCount items then
        .error (some .databaseError)
      else
        let deposit :=
          visit.getAuctionDeposit (toU32 (packet.etime * 60 : ℕ)) item.item (finalCount items)
        if !hasEnoughMoney s.money deposit then .error (some .notEnoughMoney)
        else s.createAuction env visit packet deposit item items

/-- The units of an entry under auction. -/
def auctioned (entry : ℕ) : ℕ :=
  (s.aItems.map fun it => units entry (some it)).sum

/-- The units of every entry are in the inventory or under auction as before, and every stack that
is left was there and has not grown. -/
structure Conserved (s s' : AuctionSeller) : Prop where
  units : ∀ entry, total entry (s'.inv.getItemByPos env) + s'.auctioned entry =
    total entry (s.inv.getItemByPos env) + s.auctioned entry
  shrinks : ∀ pos it', s'.inv.getItemByPos env pos = some it' →
    ∃ it, s.inv.getItemByPos env pos = some it ∧ it.guid = it'.guid ∧ it'.count ≤ it.count

/-- The pairs list items of one entry, and no item for more units than it has. -/
def OneEntry (pairs : List (ℕ × ℕ)) : Prop :=
  ∃ entry, ∀ x ∈ pairs, ∃ pos it, s.inv.getItemByGuid env x.1 = some (pos, it) ∧
    it.entry = entry ∧ ((pairs.filter fun y => y.1 = x.1).map Prod.snd).sum ≤ it.count

end AuctionSeller

/-! ## Taking counts from one stack -/

/-- What is left of an item when a count is taken. -/
def takeFrom (o : Option Item) (count : ℕ) : Option Item :=
  o.bind fun it =>
    if it.count = count then none else some { it with count := toU32 (it.count - count : ℤ) }

theorem takeFrom_none (cs : List ℕ) : cs.foldl takeFrom none = none := by
  induction cs with
  | nil => rfl
  | cons c cs ih => exact ih

/-- Counts that a stack has more than. -/
theorem takeAll_part : ∀ (cs : List ℕ) {it : Item}, cs.sum < it.count → it.count < 2 ^ 32 →
    cs.foldl takeFrom (some it) = some { it with count := it.count - cs.sum }
  | [], _, _, _ => rfl
  | c :: cs, it, h, hlt => by
    rw [List.sum_cons] at h ⊢
    have hleft : toU32 (it.count - c : ℤ) = it.count - c := by
      unfold toU32
      omega
    have hstep : takeFrom (some it) c = some { it with count := it.count - c } := by
      rw [← hleft]
      exact if_neg (by omega)
    rw [foldl_cons, hstep, takeAll_part cs (by simp only; omega) (by simp only; omega)]
    simp only [Nat.sub_sub]

/-- The counts are taken from a stack in turn. It is gone, or smaller by their sum, or it has
wrapped around. -/
theorem takeAll_cases : ∀ (cs : List ℕ) {it : Item}, 1 ≤ it.count → it.count < 2 ^ 31 →
    cs.sum < 2 ^ 31 →
    cs.foldl takeFrom (some it) = none ∧ it.count ≤ cs.sum ∨
      cs.foldl takeFrom (some it) = some { it with count := it.count - cs.sum } ∧
        cs.sum < it.count ∨
      (∃ n, cs.foldl takeFrom (some it) = some { it with count := n } ∧ 2 ^ 31 ≤ n) ∧
        it.count < cs.sum
  | [], it, hone, _, _ => .inr (.inl ⟨rfl, hone⟩)
  | c :: cs, it, hone, hlt, hsum => by
    rw [List.sum_cons] at hsum ⊢
    rcases lt_trichotomy c it.count with h | h | h
    · have hleft : toU32 (it.count - c : ℤ) = it.count - c := by
        unfold toU32
        omega
      have hstep : takeFrom (some it) c = some { it with count := it.count - c } := by
        rw [← hleft]
        exact if_neg h.ne'
      rw [foldl_cons, hstep]
      have hrest := @takeAll_cases cs { it with count := it.count - c } (by simp only; omega)
        (by simp only; omega) (by omega)
      simp only at hrest
      rcases hrest with ⟨hnone, hle⟩ | ⟨hsome, hlt'⟩ | ⟨⟨n, hsome, hn⟩, hlt'⟩
      · exact .inl ⟨hnone, by omega⟩
      · refine .inr (.inl ⟨?_, by omega⟩)
        rw [hsome, Nat.sub_sub]
      · exact .inr (.inr ⟨⟨n, hsome, hn⟩, by omega⟩)
    · have hstep : takeFrom (some it) c = none := if_pos h.symm
      rw [foldl_cons, hstep]
      exact .inl ⟨takeFrom_none cs, by omega⟩
    · have hleft : toU32 (it.count - c : ℤ) = 2 ^ 32 + it.count - c := by
        unfold toU32
        omega
      have hstep : takeFrom (some it) c = some { it with count := 2 ^ 32 + it.count - c } := by
        rw [← hleft]
        exact if_neg h.ne
      rw [foldl_cons, hstep, takeAll_part cs (by simp only; omega) (by simp only; omega)]
      exact .inr (.inr ⟨⟨_, rfl, by simp only; omega⟩, by omega⟩)

/-! ## Taking counts from all stacks -/

/-- The counts that a list takes from a position. -/
def countsAt (xs : List (Pos × ℕ)) (p : Pos) : List ℕ :=
  (xs.filter fun x => x.1 = p).map Prod.snd

/-- What is left at the positions when all counts are taken. -/
def takeAll (f : Pos → Option Item) (xs : List (Pos × ℕ)) (p : Pos) : Option Item :=
  (countsAt xs p).foldl takeFrom (f p)

/-- Counts of stacks that are there. -/
structure Listing (f : Pos → Option Item) (xs : List (Pos × ℕ)) : Prop where
  held : ∀ x ∈ xs, x.1 ∈ positions ∧ (f x.1).isSome
  one_le : ∀ x ∈ xs, 1 ≤ x.2
  sum_lt : (xs.map Prod.snd).sum < 2 ^ 31
  stack : ∀ p it, f p = some it → 1 ≤ it.count ∧ it.count < 2 ^ 31

/-- The counts are of stacks of one entry that have that many units. -/
def Sufficing (f : Pos → Option Item) (entry : ℕ) (xs : List (Pos × ℕ)) : Prop :=
  ∀ x ∈ xs, ∃ it, f x.1 = some it ∧ it.entry = entry ∧ (countsAt xs x.1).sum ≤ it.count

/-- No stack has grown. -/
def Shrinks (f f' : Pos → Option Item) : Prop :=
  ∀ p it', f' p = some it' → ∃ it, f p = some it ∧ it.guid = it'.guid ∧ it'.count ≤ it.count

variable {f : Pos → Option Item} {xs : List (Pos × ℕ)} {p : Pos} {entry : ℕ}

theorem mem_countsAt {c : ℕ} : c ∈ countsAt xs p ↔ (p, c) ∈ xs := by
  simp [countsAt]

theorem countsAt_cons (x : Pos × ℕ) (xs : List (Pos × ℕ)) (p : Pos) :
    countsAt (x :: xs) p = if x.1 = p then x.2 :: countsAt xs p else countsAt xs p := by
  unfold countsAt
  split_ifs with h <;> simp_all

theorem sum_countsAt_le (xs : List (Pos × ℕ)) (p : Pos) :
    (countsAt xs p).sum ≤ (xs.map Prod.snd).sum :=
  (filter_sublist.map Prod.snd).sum_le_sum fun _ _ => Nat.zero_le _

/-- Every count is taken somewhere. -/
theorem sum_countsAt : ∀ {xs : List (Pos × ℕ)}, (∀ x ∈ xs, x.1 ∈ positions) →
    ∑ p ∈ positions, (countsAt xs p).sum = (xs.map Prod.snd).sum
  | [], _ => sum_const_zero
  | x :: xs, h => by
    have hcons : ∀ p, (countsAt (x :: xs) p).sum =
        (if x.1 = p then x.2 else 0) + (countsAt xs p).sum := by
      intro p
      rw [countsAt_cons]
      split_ifs
      · exact List.sum_cons
      · exact (Nat.zero_add _).symm
    simp only [hcons, sum_add_distrib, sum_ite_eq, List.map_cons, List.sum_cons]
    rw [if_pos (h x mem_cons_self), sum_countsAt fun y hy => h y (mem_cons_of_mem _ hy)]

theorem takeAll_of_nil (h : countsAt xs p = []) : takeAll f xs p = f p := by
  rw [takeAll, h]
  rfl

section

variable (h : Listing f xs)
include h

/-- A position that counts are taken from, and what is there. -/
theorem Listing.exists_held (hne : countsAt xs p ≠ []) :
    ∃ it, f p = some it ∧ 1 ≤ (countsAt xs p).sum := by
  obtain ⟨c, hc⟩ := exists_mem_of_ne_nil _ hne
  obtain ⟨it, hit⟩ := Option.isSome_iff_exists.1 (h.held _ (mem_countsAt.1 hc)).2
  exact ⟨it, hit, (h.one_le _ (mem_countsAt.1 hc)).trans (single_le_sum (by simp) c hc)⟩

/-- The three outcomes for a stack. -/
theorem Listing.cases {it : Item} (hit : f p = some it) :
    takeAll f xs p = none ∧ it.count ≤ (countsAt xs p).sum ∨
      takeAll f xs p = some { it with count := it.count - (countsAt xs p).sum } ∧
        (countsAt xs p).sum < it.count ∨
      (∃ n, takeAll f xs p = some { it with count := n } ∧ 2 ^ 31 ≤ n) ∧
        it.count < (countsAt xs p).sum := by
  obtain ⟨hone, hlt⟩ := h.stack p it hit
  rw [takeAll, hit]
  exact takeAll_cases _ hone hlt ((sum_countsAt_le xs p).trans_lt h.sum_lt)

/-- Counts that suffice are taken from the stacks of the entry and from no other. -/
theorem Listing.units_of_sufficing (hsuff : Sufficing f entry xs) (e : ℕ) (p : Pos) :
    units e (takeAll f xs p) + (if e = entry then (countsAt xs p).sum else 0) = units e (f p) := by
  by_cases hne : countsAt xs p = []
  · rw [takeAll_of_nil hne, hne]
    simp
  obtain ⟨c, hc⟩ := exists_mem_of_ne_nil _ hne
  obtain ⟨it, hit, hentry, hle⟩ := hsuff _ (mem_countsAt.1 hc)
  simp only at hit hle
  rcases h.cases hit with ⟨hleft, hge⟩ | ⟨hleft, hlt⟩ | ⟨-, hlt⟩
  · rw [hleft, hit]
    simp only [units, hentry, eq_comm (a := e)]
    split_ifs <;> omega
  · rw [hleft, hit]
    simp only [units, hentry, eq_comm (a := e)]
    split_ifs <;> omega
  · omega

theorem Listing.shrinks_of_sufficing (hsuff : Sufficing f entry xs) : Shrinks f (takeAll f xs) := by
  intro p it' hit'
  by_cases hne : countsAt xs p = []
  · rw [takeAll_of_nil hne] at hit'
    exact ⟨it', hit', rfl, le_rfl⟩
  obtain ⟨c, hc⟩ := exists_mem_of_ne_nil _ hne
  obtain ⟨it, hit, -, hle⟩ := hsuff _ (mem_countsAt.1 hc)
  rcases h.cases hit with ⟨hleft, -⟩ | ⟨hleft, -⟩ | ⟨-, hlt⟩
  · rw [hleft] at hit'
    cases hit'
  · rw [hleft] at hit'
    obtain rfl := Option.some.inj hit'
    exact ⟨it, hit, rfl, Nat.sub_le _ _⟩
  · omega

/-- A stack that has not grown has lost at most what was taken, and no less only if it is of the
entry and had that many units. -/
theorem Listing.units_le (hshrinks : Shrinks f (takeAll f xs)) (p : Pos) :
    units entry (f p) ≤ units entry (takeAll f xs p) + (countsAt xs p).sum ∧
      (countsAt xs p ≠ [] →
        units entry (f p) = units entry (takeAll f xs p) + (countsAt xs p).sum →
        ∃ it, f p = some it ∧ it.entry = entry ∧ (countsAt xs p).sum ≤ it.count) := by
  by_cases hne : countsAt xs p = []
  · rw [takeAll_of_nil hne]
    exact ⟨Nat.le_add_right _ _, fun hc => absurd hne hc⟩
  obtain ⟨it, hit, hone⟩ := h.exists_held hne
  rcases h.cases hit with ⟨hleft, hge⟩ | ⟨hleft, hlt⟩ | ⟨⟨n, hleft, hn⟩, -⟩
  · rw [hleft, hit]
    simp only [units]
    by_cases he : it.entry = entry
    · rw [if_pos he]
      exact ⟨by omega, fun _ heq => ⟨it, rfl, he, by omega⟩⟩
    · rw [if_neg he]
      exact ⟨Nat.zero_le _, fun _ heq => by omega⟩
  · rw [hleft, hit]
    simp only [units]
    by_cases he : it.entry = entry
    · rw [if_pos he, if_pos he]
      exact ⟨by omega, fun _ _ => ⟨it, rfl, he, hlt.le⟩⟩
    · rw [if_neg he, if_neg he]
      exact ⟨Nat.zero_le _, fun _ heq => by omega⟩
  · obtain ⟨it0, hit0, -, hle⟩ := hshrinks p _ hleft
    obtain rfl := Option.some.inj (hit.symm.trans hit0)
    have hsmall := (h.stack p it hit).2
    simp only at hle
    omega

/-- The units of every entry add up, with the sum of the counts for one entry, and no stack has
grown : this holds exactly when the stacks of one entry suffice. -/
theorem Listing.conserved_iff :
    (∀ e, total e (takeAll f xs) + (if e = entry then (xs.map Prod.snd).sum else 0) = total e f) ∧
      Shrinks f (takeAll f xs) ↔ Sufficing f entry xs := by
  have hsum := sum_countsAt fun x hx => (h.held x hx).1
  constructor
  · rintro ⟨hunits, hshrinks⟩ x hx
    have htotal := hunits entry
    rw [if_pos rfl, ← hsum, total, total, ← sum_add_distrib] at htotal
    have hle : ∀ p ∈ positions,
        units entry (f p) ≤ units entry (takeAll f xs p) + (countsAt xs p).sum :=
      fun p _ => (h.units_le hshrinks p).1
    have heach := (sum_eq_sum_iff_of_le hle).1 htotal.symm x.1 (h.held x hx).1
    exact (h.units_le hshrinks x.1).2 (ne_nil_of_mem (mem_countsAt.2 hx)) heach
  · refine fun hsuff => ⟨fun e => ?_, h.shrinks_of_sufficing hsuff⟩
    rw [total, total, ← sum_congr rfl fun p _ => h.units_of_sufficing hsuff e p, sum_add_distrib]
    refine congrArg (_ + ·) ?_
    split_ifs
    · exact hsum.symm
    · exact sum_const_zero.symm

end

/-! ## The second loop -/

namespace Inventory

variable {env : ItemEnv} {inv : Inventory}

/-- No bag is in a slot for bags. -/
def Plain (env : ItemEnv) (inv : Inventory) (p : Pos) : Prop :=
  ∀ it, inv.getItemByPos env p = some it → isBagPos p = true → env.isBag it = false

theorem inside_of_not_bag {it : Item} (h : env.isBag it = false) :
    inv.inside env (some it) = fun _ => none := by
  funext j
  simp [inside, h]

theorem takeCount_spec (hw : inv.Distinct) (hp : Plain env inv p) (c : ℕ) :
    (inv.takeCount env p c).Distinct ∧ (inv.takeCount env p c).getItemByPos env =
      update (inv.getItemByPos env) p (takeFrom (inv.getItemByPos env p) c) := by
  unfold takeCount
  cases hit : inv.getItemByPos env p with
  | none =>
    have hself : takeFrom none c = inv.getItemByPos env p := hit.symm
    exact ⟨hw, by rw [hself, update_eq_self]⟩
  | some it =>
    have husable := usable_of_getItemByPos hit
    by_cases hc : it.count = c
    · simp only [if_pos hc, takeFrom, Option.bind_some]
      rw [removeItem_eq_put hit]
      refine ⟨hw.put (by rintro _ ⟨⟩), getItemByPos_put hw husable fun hbag => ?_⟩
      rw [hit, inside_of_not_bag (hp it hit hbag)]
      rfl
    · simp only [if_neg hc, takeFrom, Option.bind_some]
      exact ⟨hw.replace hit rfl, getItemByPos_replace hw hit rfl rfl⟩

theorem Plain.update {inv' : Inventory} {q : Pos} {c : ℕ} (hq : Plain env inv q)
    (h : inv'.getItemByPos env =
      update (inv.getItemByPos env) p (takeFrom (inv.getItemByPos env p) c)) :
    Plain env inv' q := by
  intro it' hit' hbag
  rw [h] at hit'
  by_cases hqp : q = p
  · subst hqp
    rw [update_self] at hit'
    obtain ⟨it, hit, hleft⟩ := Option.bind_eq_some_iff.1 hit'
    split_ifs at hleft
    obtain rfl := Option.some.inj hleft
    exact hq it hit hbag
  · rw [update_of_ne hqp] at hit'
    exact hq it' hit' hbag

/-- All counts are taken. -/
theorem getItemByPos_takeAll : ∀ (xs : List (Pos × ℕ)) {inv : Inventory}, inv.Distinct →
    (∀ x ∈ xs, Plain env inv x.1) →
    (xs.foldl (fun inv x => inv.takeCount env x.1 x.2) inv).getItemByPos env =
      takeAll (inv.getItemByPos env) xs
  | [], _, _, _ => rfl
  | x :: xs, inv, hw, hplain => by
    obtain ⟨hw', hstep⟩ := takeCount_spec hw (hplain x mem_cons_self) x.2
    have hrest := getItemByPos_takeAll xs hw'
      fun y hy => (hplain y (mem_cons_of_mem _ hy)).update hstep
    rw [foldl_cons, hrest, hstep]
    funext p
    rw [takeAll, takeAll, countsAt_cons]
    by_cases hp : x.1 = p
    · subst hp
      rw [if_pos rfl, update_self, foldl_cons]
    · rw [if_neg hp, update_of_ne (Ne.symm hp)]

end Inventory

/-! ## The handler -/

namespace AuctionSeller

variable {env : ItemEnv} {visit : AuctionVisit} {s s' : AuctionSeller} {packet : SellPacket}
  {items : List SellItem} {pairs : List (ℕ × ℕ)} {y z : SellItem}

/-- A pair that passes its checks. -/
theorem sellItem_ok {x : ℕ × ℕ} (h : s.sellItem env visit x = .ok y) :
    s.inv.getItemByGuid env x.1 = some (y.pos, y.item) ∧ y.count = x.2 ∧
      s.inv.Plain env y.pos := by
  unfold sellItem at h
  split at h
  · cases h
  rename_i pos it hget
  split_ifs at h with hbad
  obtain rfl := Except.ok.inj h
  refine ⟨hget, rfl, fun it' hit' hbag => ?_⟩
  obtain rfl := Option.some.inj ((Inventory.getItemByGuid_eq_some hget).1.symm.trans hit')
  simp only [Bool.or_eq_true, not_or, Bool.not_eq_true', Bool.not_eq_false] at hbad
  have htrade := hbad.1.1.1.1.2
  simp only [Item.canBeTraded, Bool.and_eq_true, Bool.not_eq_true', Bool.and_eq_false_iff] at htrade
  rcases htrade.1.1.1.2 with hno | hno
  · exact hno
  · simp [hbag] at hno

/-- The listed items name their pairs. -/
theorem sellItems_ok : ∀ {pairs : List (ℕ × ℕ)} {items : List SellItem},
    pairs.mapM (s.sellItem env visit) = .ok items →
    pairs = items.map (fun y => (y.item.guid, y.count)) ∧
      ∀ y ∈ items, s.sellItem env visit (y.item.guid, y.count) = .ok y
  | [], items, h => by
    obtain rfl := Except.ok.inj h
    exact ⟨rfl, fun _ hy => absurd hy not_mem_nil⟩
  | x :: pairs, items, h => by
    rw [mapM_cons] at h
    cases hx : s.sellItem env visit x with
    | error e =>
      rw [hx] at h
      cases h
    | ok y =>
      rw [hx] at h
      cases hrest : pairs.mapM (s.sellItem env visit) with
      | error e =>
        rw [hrest] at h
        cases h
      | ok ys =>
        rw [hrest] at h
        obtain rfl := Except.ok.inj h
        obtain ⟨hpairs, hall⟩ := sellItems_ok hrest
        obtain ⟨hget, hcount, -⟩ := sellItem_ok hx
        have hkey : x = (y.item.guid, y.count) :=
          Prod.ext (Inventory.getItemByGuid_eq_some hget).2.symm hcount.symm
        refine ⟨?_, fun z hz => ?_⟩
        · rw [List.map_cons, ← hpairs, ← hkey]
        · rcases List.mem_cons.1 hz with rfl | hz
          · rw [← hkey]
            exact hx
          · exact hall z hz

/-- Positions with the counts that are taken from them. -/
def places (items : List SellItem) : List (Pos × ℕ) :=
  items.map fun y => (y.pos, y.count)

theorem foldl_takeCount (env : ItemEnv) (items : List SellItem) (inv : Inventory) :
    items.foldl (fun inv y => inv.takeCount env y.pos y.count) inv =
      (places items).foldl (fun inv x => inv.takeCount env x.1 x.2) inv := by
  rw [places, foldl_map]

theorem sum_places (items : List SellItem) :
    ((places items).map Prod.snd).sum = finalCount items := by
  simp [places, finalCount, Function.comp_def]

/-- The item of a listed pair is at its position. -/
theorem item_at (h : s.sellItem env visit (y.item.guid, y.count) = .ok y) :
    s.inv.getItemByPos env y.pos = some y.item :=
  (Inventory.getItemByGuid_eq_some (sellItem_ok h).1).1

/-- The counts taken from a position are those of the guid that is there. -/
theorem countsAt_places (hw : s.inv.WF env)
    (hall : ∀ y ∈ items, s.sellItem env visit (y.item.guid, y.count) = .ok y) (hz : z ∈ items) :
    countsAt (places items) z.pos =
      ((items.map fun y => (y.item.guid, y.count)).filter fun x => x.1 = z.item.guid).map
        Prod.snd := by
  rw [countsAt, places, filter_map, filter_map, List.map_map, List.map_map]
  have hsame : ∀ y ∈ items, (decide (y.pos = z.pos) = decide (y.item.guid = z.item.guid)) := by
    intro y hy
    refine decide_eq_decide.2 ⟨fun hpos => ?_, fun hguid => ?_⟩
    · have hy' := item_at (hall y hy)
      rw [hpos, item_at (hall z hz)] at hy'
      rw [Option.some.inj hy']
    · exact hw.pos_unique (item_at (hall y hy)) (item_at (hall z hz)) hguid
  exact congrArg (List.map SellItem.count) (filter_congr hsame)

/-- The listed counts are of stacks that are there. -/
theorem listing (hw : s.inv.WF env)
    (hall : ∀ y ∈ items, s.sellItem env visit (y.item.guid, y.count) = .ok y)
    (hone : ∀ y ∈ items, 1 ≤ y.count) (hsum : finalCount items < 2 ^ 31) :
    Listing (s.inv.getItemByPos env) (places items) where
  held := by
    intro x hx
    obtain ⟨y, hy, rfl⟩ := mem_map.1 hx
    have hit := item_at (hall y hy)
    exact ⟨(Inventory.usable_of_getItemByPos hit).mem_positions, Option.isSome_of_eq_some hit⟩
  one_le := by
    intro x hx
    obtain ⟨y, hy, rfl⟩ := mem_map.1 hx
    exact hone y hy
  sum_lt := (sum_places items).trans_lt hsum
  stack := by
    intro p it hit
    obtain ⟨proto, -, hge, hle⟩ := hw.stack_pos hit
    exact ⟨hge, hle.trans_lt proto.getMaxStackSize_lt⟩

/-- The condition on the packet, at the positions. -/
theorem oneEntry_iff (hw : s.inv.WF env)
    (hall : ∀ y ∈ items, s.sellItem env visit (y.item.guid, y.count) = .ok y) (hz : z ∈ items) :
    s.OneEntry env (items.map fun y => (y.item.guid, y.count)) ↔
      Sufficing (s.inv.getItemByPos env) z.item.entry (places items) := by
  constructor
  · rintro ⟨entry, h⟩ x hx
    obtain ⟨y, hy, rfl⟩ := mem_map.1 hx
    have hat : ∀ y ∈ items, y.item.entry = entry ∧
        (countsAt (places items) y.pos).sum ≤ y.item.count := by
      intro y hy
      obtain ⟨pos, it, hget, hentry, hle⟩ := h _ (mem_map_of_mem hy)
      rw [(sellItem_ok (hall y hy)).1] at hget
      obtain ⟨rfl, rfl⟩ := Prod.mk.inj (Option.some.inj hget)
      exact ⟨hentry, (countsAt_places hw hall hy).symm ▸ hle⟩
    exact ⟨y.item, item_at (hall y hy), (hat y hy).1.trans (hat z hz).1.symm, (hat y hy).2⟩
  · refine fun h => ⟨z.item.entry, fun x hx => ?_⟩
    obtain ⟨y, hy, rfl⟩ := mem_map.1 hx
    obtain ⟨it, hit, hentry, hle⟩ := h _ (mem_map_of_mem hy)
    obtain rfl := Option.some.inj ((item_at (hall y hy)).symm.trans hit)
    exact ⟨y.pos, y.item, (sellItem_ok (hall y hy)).1, hentry, countsAt_places hw hall hy ▸ hle⟩

/-- What an auction takes from the inventory and puts under auction. -/
structure Auctioned (env : ItemEnv) (s : AuctionSeller) (item : SellItem) (items : List SellItem)
    (s' : AuctionSeller) : Prop where
  inv : s'.inv.getItemByPos env = takeAll (s.inv.getItemByPos env) (places items)
  units : ∀ entry, s'.auctioned entry =
    (if entry = item.item.entry then finalCount items else 0) + s.auctioned entry

theorem auctioned_addAuction (s : AuctionSeller) (deposit : ℕ) (it : Item) (inv : Inventory)
    (entry : ℕ) : (s.addAuction visit packet deposit it inv).auctioned entry =
      units entry (some it) + s.auctioned entry := by
  rfl

theorem createAuction_ok {item : SellItem} {rest : List SellItem} {deposit : ℕ} (hw : s.inv.WF env)
    (hall : ∀ y ∈ item :: rest, s.sellItem env visit (y.item.guid, y.count) = .ok y)
    (hone : ∀ y ∈ item :: rest, 1 ≤ y.count)
    (hmax : finalCount (item :: rest) ≤ env.getMaxStackCount item.item)
    (h : s.createAuction env visit packet deposit item (item :: rest) = .ok s') :
    Auctioned env s item (item :: rest) s' := by
  have hplain : ∀ x ∈ places (item :: rest), s.inv.Plain env x.1 := by
    intro x hx
    obtain ⟨y, hy, rfl⟩ := mem_map.1 hx
    exact (sellItem_ok (hall y hy)).2.2
  have hit := item_at (hall item mem_cons_self)
  unfold createAuction at h
  split_ifs at h with hwhole
  · obtain rfl := Except.ok.inj h
    obtain ⟨hlen, hcount⟩ := hwhole
    obtain rfl : rest = [] := eq_nil_of_length_eq_zero (Nat.succ.inj hlen)
    refine ⟨?_, fun entry => ?_⟩
    · rw [← Inventory.getItemByPos_takeAll _ hw.toDistinct hplain]
      simp only [places, List.map_cons, map_nil, foldl_cons, foldl_nil,
        Inventory.takeCount, hit, if_pos hcount, addAuction]
    · rw [auctioned_addAuction, units, hcount]
      simp [finalCount, eq_comm]
  · obtain ⟨proto, hproto, -, -⟩ := hw.stack_pos hit
    have hfinal : 1 ≤ finalCount (item :: rest) :=
      (hone item mem_cons_self).trans (Nat.le_add_right _ _)
    rw [ItemEnv.getMaxStackCount, hproto] at hmax
    obtain ⟨new, hclone, -, hentry, hcount⟩ := Inventory.cloneItem_eq s.inv hproto hfinal hmax
    rw [hclone] at h
    obtain rfl := Except.ok.inj h
    refine ⟨?_, fun entry => ?_⟩
    · rw [addAuction, foldl_takeCount, Inventory.getItemByPos_takeAll _ hw.bump.toDistinct,
        Inventory.getItemByPos_bump]
      exact fun x hx it => Inventory.getItemByPos_bump env s.inv ▸ hplain x hx it
    · rw [auctioned_addAuction, units, hcount, hentry]
      simp only [eq_comm]

/-- An accepted packet. -/
theorem handleAuctionSellItem_ok (hw : s.inv.WF env)
    (h : s.handleAuctionSellItem env visit packet = .ok s') :
    ∃ item rest, packet.pairs = (item :: rest).map (fun y => (y.item.guid, y.count)) ∧
      (∀ y ∈ item :: rest, s.sellItem env visit (y.item.guid, y.count) = .ok y) ∧
      (∀ y ∈ item :: rest, 1 ≤ y.count) ∧ finalCount (item :: rest) < 2 ^ 31 ∧
      Auctioned env s item (item :: rest) s' := by
  unfold handleAuctionSellItem at h
  split_ifs at h with hlen hzero hterms hmoney hauctioneer htime
  split at h
  · cases h
  · cases h
  rename_i item rest hitems
  simp only at h
  split_ifs at h with hstack henough
  obtain ⟨hpairs, hall⟩ := sellItems_ok hitems
  have hone : ∀ y ∈ item :: rest, 1 ≤ y.count := by
    intro y hy
    have hmem : (y.item.guid, y.count) ∈ packet.pairs := hpairs ▸ mem_map_of_mem hy
    have hno := any_eq_false.1 (Bool.eq_false_iff.2 hzero) _ hmem
    simp only [Bool.or_eq_true, decide_eq_true_eq, not_or] at hno
    omega
  have hmax : finalCount (item :: rest) ≤ env.getMaxStackCount item.item := by
    have hno := any_eq_false.1 (Bool.eq_false_iff.2 hstack) item mem_cons_self
    simpa using hno
  obtain ⟨proto, hproto, -, -⟩ := hw.stack_pos (item_at (hall item mem_cons_self))
  have hsmall : finalCount (item :: rest) < 2 ^ 31 := by
    refine hmax.trans_lt ?_
    rw [ItemEnv.getMaxStackCount, hproto]
    exact proto.getMaxStackSize_lt
  exact ⟨item, rest, hpairs, hall, hone, hsmall, createAuction_ok hw hall hone hmax h⟩

/-- Selling conserves the units exactly if all pairs list items of one entry and no stack is listed
for more units than it has. -/
theorem auctionSell_conserved_iff (hw : s.inv.WF env)
    (h : s.handleAuctionSellItem env visit packet = .ok s') :
    Conserved env s s' ↔ s.OneEntry env packet.pairs := by
  obtain ⟨item, rest, hpairs, hall, hone, hsmall, hsold⟩ := handleAuctionSellItem_ok hw h
  have hlisting := listing hw hall hone hsmall
  rw [hpairs, oneEntry_iff hw hall mem_cons_self, ← hlisting.conserved_iff, sum_places,
    ← hsold.inv]
  constructor
  · rintro ⟨hunits, hshrinks⟩
    refine ⟨fun e => ?_, hshrinks⟩
    have he := hunits e
    rw [hsold.units e] at he
    omega
  · rintro ⟨hunits, hshrinks⟩
    refine ⟨fun e => ?_, hshrinks⟩
    have he := hunits e
    rw [hsold.units e]
    omega

/-! ## A stack of five and one of eighteen -/

/-- A player with stacks of five and eighteen units of one entry. -/
def twoStacks : AuctionSeller where
  inv := smallInventory
  money := 0

def sellVisit : AuctionVisit where
  mover := { player := ⟨1, one_lt_guids⟩ }

/-- A packet for twelve hours. -/
def smallPacket (pairs : List (ℕ × ℕ)) : SellPacket :=
  { pairs, bid := 1, buyout := 0, etime := 720 }

/-- What is left of the first stack. -/
def leftOver (pairs : List (ℕ × ℕ)) : Option ℕ :=
  match twoStacks.handleAuctionSellItem smallEnv sellVisit (smallPacket pairs) with
  | .error _ => none
  | .ok s => (s.inv.getItemByPos smallEnv (255, 23)).map Item.count

theorem exists_of_leftOver {pairs : List (ℕ × ℕ)} {n : ℕ} (h : leftOver pairs = some n) :
    ∃ s' it, twoStacks.handleAuctionSellItem smallEnv sellVisit (smallPacket pairs) = .ok s' ∧
      s'.inv.getItemByPos smallEnv (255, 23) = some it ∧ it.count = n := by
  unfold leftOver at h
  split at h
  · cases h
  rename_i s' hsell
  obtain ⟨it, hit, hn⟩ := Option.map_eq_some_iff.1 h
  exact ⟨s', it, hsell, hit, hn⟩

/-- Three units of one stack and four of the other. -/
theorem auctionSell_conserved_iff_twoStacks :
    ∃ s', twoStacks.handleAuctionSellItem smallEnv sellVisit (smallPacket [(1, 3), (2, 4)]) =
      .ok s' ∧ Conserved smallEnv twoStacks s' := by
  have hleft : leftOver [(1, 3), (2, 4)] = some 2 := by decide +kernel
  obtain ⟨s', it, hsell, -, -⟩ := exists_of_leftOver hleft
  have hw : twoStacks.inv.WF smallEnv :=
    Inventory.wf_ofList (by decide) (by decide) (by decide) (by decide)
  have hfirst : twoStacks.inv.getItemByGuid smallEnv 1 =
      some ((255, 23), { guid := 1, entry := 117, count := 5 }) := by decide +kernel
  have hsecond : twoStacks.inv.getItemByGuid smallEnv 2 =
      some ((255, 24), { guid := 2, entry := 117, count := 18 }) := by decide +kernel
  refine ⟨s', hsell, (auctionSell_conserved_iff hw hsell).2 ⟨117, fun x hx => ?_⟩⟩
  simp only [smallPacket, List.mem_cons, not_mem_nil, or_false] at hx
  rcases hx with rfl | rfl
  · exact ⟨_, _, hfirst, rfl, by decide⟩
  · exact ⟨_, _, hsecond, rfl, by decide⟩

/-- A stack of five that is listed for three units twice wraps around. -/
theorem not_auctionSell_conserved_twice :
    ∃ s', twoStacks.handleAuctionSellItem smallEnv sellVisit (smallPacket [(1, 3), (1, 3)]) =
      .ok s' ∧ ¬Conserved smallEnv twoStacks s' := by
  have hleft : leftOver [(1, 3), (1, 3)] = some 4294967295 := by decide +kernel
  obtain ⟨s', it', hsell, hit', hn⟩ := exists_of_leftOver hleft
  refine ⟨s', hsell, fun h => ?_⟩
  obtain ⟨it, hit, -, hle⟩ := h.shrinks _ it' hit'
  have hfive : twoStacks.inv.getItemByPos smallEnv (255, 23) =
      some { guid := 1, entry := 117, count := 5 } := by decide +kernel
  obtain rfl := Option.some.inj hit
  rw [hn] at hle
  exact absurd hle (by decide)

end AuctionSeller

end MistyWorld
