import MistyWorld.Keyed
import MistyWorld.Money
import MistyWorld.Run
import Mathlib.Data.Fintype.Basic

/-!
# Auction house : bids, cancellation, expiry

`HandleAuctionPlaceBid`, `HandleAuctionRemoveItem` and `AuctionHouseObject::Update` on
the three auction houses, the players' gold and the mails the auction house sends. The
cut and the outbid step are computed by the server in floating point; they enter as
the parameters of `AuctionConfig`.

The gold of the auction house is in three places : the coinage of the players, the
mails, and the bid of each auction that has a bidder. `ledger` is their sum and
`ledgerChange` what a request may do to it : a cancelled auction costs its owner the
cut, a sold one pays the deposit back and keeps the cut.

`startbid`, `bid` and `buyout` are 32-bit fields, while the price of a request is a
64-bit word. A bid at an auction without buyout takes the whole price from the bidder
and keeps its low 32 bits (`placeBid_wide_price_lost`). Under `Narrow`, no field of the
sale wraps around, and every run balances at every step (`auction_run_balanced`).
-/

open Keyed Option List Word Machine

namespace MistyWorld

/-! ## The data -/

/-- The auction houses of `AuctionHouseMgr`. -/
inductive AuctionHouse
  | alliance
  | horde
  | neutral
  deriving DecidableEq, Repr

instance : Fintype AuctionHouse :=
  ⟨{.alliance, .horde, .neutral}, fun h => by cases h <;> decide⟩

/-- `AuctionError`. -/
inductive AuctionError
  | ok
  | inventory
  | databaseError
  | notEnoughMoney
  | itemNotFound
  | higherBid
  | bidIncrement
  | bidOwn
  | restrictedAccount
  deriving DecidableEq, Repr

/-- `MailAuctionAnswers`. -/
inductive MailAuctionAnswer
  | outbidded
  | won
  | successful
  | expired
  | cancelledToBidder
  | canceled
  | salePending
  deriving DecidableEq, Repr

/-- `AuctionEntry`, with the cut percentage of its `AuctionHouseEntry`. -/
structure AuctionEntry where
  id : ℕ
  itemGUIDLow : ℕ
  itemEntry : ℕ
  itemCount : ℕ
  owner : ℕ
  startbid : ℕ
  bid : ℕ
  buyout : ℕ
  expireTime : ℕ
  bidder : ℕ
  deposit : ℕ
  cutPercent : ℕ
  deriving DecidableEq, Repr

/-- A mail of the auction house : its answer, receiver, gold and attached item. -/
structure AuctionMail where
  answer : MailAuctionAnswer
  receiver : ℕ
  money : ℕ
  item : Option ℕ
  deriving DecidableEq, Repr

/-- The floating-point parts of the price rules. -/
structure AuctionConfig where
  /-- `CalculatePct(bid, cutPercent) * RATE_AUCTION_CUT` as an `int32`. -/
  calculateCut : ℕ → ℕ → ℤ
  /-- `CalculatePct(bid, 5)`. -/
  calculateOutBid : ℕ → ℕ

/-- The characters with their coinage, the auctions of each house, the items held by the
manager and the mails sent. -/
structure AuctionWorld where
  characters : Finset ℕ
  money : ℕ → ℕ
  auctions : AuctionHouse → List AuctionEntry
  aItems : Finset ℕ
  mails : List AuctionMail

namespace AuctionEntry

variable (cfg : AuctionConfig) (a : AuctionEntry)

/-- `AuctionEntry::GetAuctionCut`. -/
def getAuctionCut : ℕ :=
  toU32 (max (cfg.calculateCut a.bid a.cutPercent) 0)

/-- `AuctionEntry::GetAuctionOutBid`. -/
def getAuctionOutBid : ℕ :=
  if cfg.calculateOutBid a.bid ≠ 0 then cfg.calculateOutBid a.bid else 1

/-- The owner's share in `SendAuctionSuccessfulMail`, a `uint32`. -/
def profit : ℕ :=
  toU32 (a.bid + a.deposit - a.getAuctionCut cfg)

/-- The gold the auction holds for its bidder. -/
def escrow : ℕ :=
  if a.bidder ≠ 0 then a.bid else 0

/-- The auction as a buyout leaves it. -/
def soldTo (player : ℕ) : AuctionEntry :=
  { a with bidder := player, bid := a.buyout }

@[simp] theorem id_soldTo (player : ℕ) : (a.soldTo player).id = a.id :=
  rfl

@[simp] theorem owner_soldTo (player : ℕ) : (a.soldTo player).owner = a.owner :=
  rfl

@[simp] theorem bid_soldTo (player : ℕ) : (a.soldTo player).bid = a.buyout :=
  rfl

/-- The part of the escrow that is the player's own. -/
def ownBid (player : ℕ) : ℕ :=
  if a.bidder = player then a.bid else 0

end AuctionEntry

/-! ## Mails and the auction map -/

namespace AuctionWorld

variable (w : AuctionWorld)

/-- `AuctionHouseObject::GetAuction`. -/
def getAuction (h : AuctionHouse) (id : ℕ) : Option AuctionEntry :=
  find AuctionEntry.id (w.auctions h) id

/-- Overwrite an auction in its house. -/
def setAuction (h : AuctionHouse) (a : AuctionEntry) : AuctionWorld :=
  { w with
    auctions := Function.update w.auctions h (replace AuctionEntry.id (w.auctions h) a) }

/-- `AuctionHouseMgr::RemoveAItem` and `AuctionHouseObject::RemoveAuction`. -/
def removeAuction (h : AuctionHouse) (a : AuctionEntry) : AuctionWorld :=
  { w with
    aItems := w.aItems.erase a.itemGUIDLow
    auctions := Function.update w.auctions h (remove AuctionEntry.id (w.auctions h) a.id) }

/-- `Player::ModifyMoney` on a player of the world. -/
def modify (p : ℕ) (amount : ℤ) : AuctionWorld :=
  { w with money := Function.update w.money p (modifyMoney (w.money p) amount).1 }

/-- `MailDraft::SendMailTo`, made only when the receiver's character exists. -/
def sendMail (m : AuctionMail) : AuctionWorld :=
  if m.receiver ∈ w.characters then { w with mails := m :: w.mails } else w

/-- `AuctionHouseMgr::SendAuctionOutbiddedMail`. -/
def sendAuctionOutbiddedMail (a : AuctionEntry) : AuctionWorld :=
  w.sendMail ⟨.outbidded, a.bidder, a.bid, none⟩

/-- `AuctionHouseMgr::SendAuctionCancelledToBidderMail`. -/
def sendAuctionCancelledToBidderMail (a : AuctionEntry) : AuctionWorld :=
  w.sendMail ⟨.cancelledToBidder, a.bidder, a.bid, none⟩

/-- `AuctionHouseMgr::SendAuctionSalePendingMail`. -/
def sendAuctionSalePendingMail (a : AuctionEntry) : AuctionWorld :=
  w.sendMail ⟨.salePending, a.owner, 0, none⟩

/-- `AuctionHouseMgr::SendAuctionSuccessfulMail`. -/
def sendAuctionSuccessfulMail (cfg : AuctionConfig) (a : AuctionEntry) : AuctionWorld :=
  w.sendMail ⟨.successful, a.owner, a.profit cfg, none⟩

/-- `AuctionHouseMgr::SendAuctionWonMail`. -/
def sendAuctionWonMail (a : AuctionEntry) : AuctionWorld :=
  if a.itemGUIDLow ∈ w.aItems then w.sendMail ⟨.won, a.bidder, 0, some a.itemGUIDLow⟩ else w

/-- `AuctionHouseMgr::SendAuctionExpiredMail`. -/
def sendAuctionExpiredMail (a : AuctionEntry) : AuctionWorld :=
  if a.itemGUIDLow ∈ w.aItems then w.sendMail ⟨.expired, a.owner, 0, some a.itemGUIDLow⟩ else w

/-! ## The requests -/

/-- The bid branch of `HandleAuctionPlaceBid` : the last bidder is refunded, the price is
taken and recorded. -/
def placeBid (h : AuctionHouse) (player : ℕ) (a : AuctionEntry) (price : ℕ) : AuctionWorld :=
  let paid :=
    if 0 < a.bidder then
      if a.bidder = player then w.modify player (-toI64 (toU64 (price - a.bid)))
      else (w.sendAuctionOutbiddedMail a).modify player (-toI64 price)
    else w.modify player (-toI64 price)
  paid.setAuction h { a with bidder := player, bid := toU32 price }

/-- The buyout branch of `HandleAuctionPlaceBid` : the buyout price is taken, the last
bidder refunded, and the auction closed. -/
def placeBuyout (cfg : AuctionConfig) (h : AuctionHouse) (player : ℕ) (a : AuctionEntry) :
    AuctionWorld :=
  let paid :=
    if player = a.bidder then w.modify player (-toI64 (toU32 (a.buyout - a.bid)))
    else
      let debited := w.modify player (-toI64 a.buyout)
      if a.bidder ≠ 0 then debited.sendAuctionOutbiddedMail a else debited
  let sold := a.soldTo player
  (((paid.sendAuctionSalePendingMail sold).sendAuctionSuccessfulMail cfg sold).sendAuctionWonMail
    sold).removeAuction h sold

/-- `WorldSession::HandleAuctionPlaceBid`. `house` is the house of the auctioneer, if the
player can interact with it. -/
def handleAuctionPlaceBid (cfg : AuctionConfig) (house : Option AuctionHouse)
    (player auctionId price : ℕ) : AuctionWorld × Option AuctionError :=
  if auctionId = 0 ∨ price = 0 then (w, none) else
  match house with
  | none => (w, none)
  | some h =>
    match w.getAuction h auctionId with
    | none => (w, some .bidOwn)
    | some a =>
      if a.owner = player then (w, some .bidOwn)
      else if price ≤ a.bid ∨ price < a.startbid then (w, none)
      else if (price < a.buyout ∨ a.buyout = 0) ∧
          price < toU32 (a.bid + a.getAuctionOutBid cfg) then (w, some .higherBid)
      else if ¬hasEnoughMoney (w.money player) price then (w, some .notEnoughMoney)
      else if price < a.buyout ∨ a.buyout = 0 then (w.placeBid h player a price, some .ok)
      else (w.placeBuyout cfg h player a, some .ok)

/-- `WorldSession::HandleAuctionRemoveItem`. -/
def handleAuctionRemoveItem (cfg : AuctionConfig) (house : Option AuctionHouse)
    (player auctionId : ℕ) : AuctionWorld × Option AuctionError :=
  match house with
  | none => (w, none)
  | some h =>
    match w.getAuction h auctionId with
    | none => (w, some .databaseError)
    | some a =>
      if a.owner ≠ player then (w, some .databaseError)
      else if a.itemGUIDLow ∉ w.aItems then (w, some .databaseError)
      else if 0 < a.bidder ∧ ¬hasEnoughMoney (w.money player) (a.getAuctionCut cfg) then (w, none)
      else
        let refunded :=
          if 0 < a.bidder then
            (w.sendAuctionCancelledToBidderMail a).modify player (-toI64 (a.getAuctionCut cfg))
          else w
        ((refunded.sendMail ⟨.canceled, player, 0, some a.itemGUIDLow⟩).removeAuction h a, some .ok)

/-- The body of the loop of `AuctionHouseObject::Update`, for one row of the query. -/
def expireAuction (cfg : AuctionConfig) (h : AuctionHouse) (id : ℕ) : AuctionWorld :=
  match w.getAuction h id with
  | none => w
  | some a =>
    let settled :=
      if a.bidder = 0 then w.sendAuctionExpiredMail a
      else (w.sendAuctionSuccessfulMail cfg a).sendAuctionWonMail a
    settled.removeAuction h a

/-- `AuctionHouseObject::Update`, on the rows its query returns. -/
def update (cfg : AuctionConfig) (h : AuctionHouse) (rows : List ℕ) : AuctionWorld :=
  rows.foldl (fun w id => w.expireAuction cfg h id) w

end AuctionWorld

/-- The requests that move auction gold. -/
inductive AuctionRequest
  | placeBid (house : Option AuctionHouse) (player auctionId price : ℕ)
  | removeItem (house : Option AuctionHouse) (player auctionId : ℕ)
  | update (house : AuctionHouse) (rows : List ℕ)
  deriving DecidableEq, Repr

/-- Serve one request. Only existing characters have a session. -/
def auctionStep (cfg : AuctionConfig) (w : AuctionWorld) : AuctionRequest → AuctionWorld
  | .placeBid house player auctionId price =>
    if player ∈ w.characters then (w.handleAuctionPlaceBid cfg house player auctionId price).1
    else w
  | .removeItem house player auctionId =>
    if player ∈ w.characters then (w.handleAuctionRemoveItem cfg house player auctionId).1 else w
  | .update house rows => w.update cfg house rows

/-! ## The ledger -/

namespace AuctionWorld

/-- The coinage of the characters. -/
def gold (w : AuctionWorld) : ℕ :=
  ∑ p ∈ w.characters, w.money p

/-- The gold in the mails of the auction house. -/
def mailGold (w : AuctionWorld) : ℕ :=
  (w.mails.map AuctionMail.money).sum

/-- The bids of the live auctions that have a bidder. -/
def escrowed (w : AuctionWorld) : ℕ :=
  ∑ h : AuctionHouse, ((w.auctions h).map AuctionEntry.escrow).sum

/-- All the gold of the auction house and its customers. -/
def ledger (w : AuctionWorld) : ℕ :=
  w.gold + w.mailGold + w.escrowed

/-- What the maps of the server guarantee : distinct ids in a house, owners and bidders that
exist, 32-bit prices, a standing bid below the buyout, and gold within its limit. -/
structure WF (w : AuctionWorld) : Prop where
  nodup : ∀ h, ((w.auctions h).map AuctionEntry.id).Nodup
  zero : 0 ∉ w.characters
  owner : ∀ h, ∀ a ∈ w.auctions h, a.owner ∈ w.characters
  bidder : ∀ h, ∀ a ∈ w.auctions h, a.bidder ≠ 0 → a.bidder ∈ w.characters
  bid : ∀ h, ∀ a ∈ w.auctions h, a.bid < 2 ^ 32
  buyout : ∀ h, ∀ a ∈ w.auctions h, a.buyout < 2 ^ 32
  below : ∀ h, ∀ a ∈ w.auctions h, a.bidder ≠ 0 → a.buyout ≠ 0 → a.bid < a.buyout
  money : ∀ p, w.money p ≤ maxMoneyAmount

variable {w : AuctionWorld} {h : AuctionHouse} {a b : AuctionEntry} {p : ℕ} {m : AuctionMail}

theorem mem_of_getAuction {id : ℕ} (ha : w.getAuction h id = some a) :
    a ∈ w.auctions h ∧ a.id = id :=
  mem_of_find ha

@[simp] theorem characters_modify (z : ℤ) : (w.modify p z).characters = w.characters :=
  rfl

@[simp] theorem auctions_modify (z : ℤ) : (w.modify p z).auctions = w.auctions :=
  rfl

@[simp] theorem mails_modify (z : ℤ) : (w.modify p z).mails = w.mails :=
  rfl

@[simp] theorem characters_sendMail (m : AuctionMail) :
    (w.sendMail m).characters = w.characters := by
  unfold sendMail
  split_ifs <;> rfl

@[simp] theorem auctions_sendMail (m : AuctionMail) : (w.sendMail m).auctions = w.auctions := by
  unfold sendMail
  split_ifs <;> rfl

@[simp] theorem money_sendMail (m : AuctionMail) : (w.sendMail m).money = w.money := by
  unfold sendMail
  split_ifs <;> rfl

theorem mails_sendMail (hm : m.receiver ∈ w.characters) : (w.sendMail m).mails = m :: w.mails := by
  rw [sendMail, if_pos hm]

theorem money_modify {n : ℕ} (hmax : w.money p ≤ maxMoneyAmount) (hn : n ≤ w.money p) :
    (w.modify p (-toI64 n)).money = Function.update w.money p (w.money p - n) := by
  unfold maxMoneyAmount at hmax
  simp only [modify]
  rw [toI64_of_range (by omega) (by omega), modifyMoney_debit (by omega) hn]

/-- A debit the player can pay leaves the ledger by exactly its amount. -/
theorem ledger_modify {n : ℕ} (hp : p ∈ w.characters) (hmax : w.money p ≤ maxMoneyAmount)
    (hn : n ≤ w.money p) : (w.modify p (-toI64 n)).ledger + n = w.ledger := by
  have hgold : (w.modify p (-toI64 n)).gold + w.money p = w.gold + (w.money p - n) := by
    rw [gold, money_modify hmax hn]
    exact Finset.sum_update_add hp (fun _ n => n) _ _
  have hmail : (w.modify p (-toI64 n)).mailGold = w.mailGold := rfl
  have hescrow : (w.modify p (-toI64 n)).escrowed = w.escrowed := rfl
  unfold ledger
  omega

theorem ledger_sendMail (hm : m.receiver ∈ w.characters) :
    (w.sendMail m).ledger = w.ledger + m.money := by
  rw [sendMail, if_pos hm]
  simp only [ledger, gold, mailGold, escrowed, map_cons, sum_cons]
  omega

/-- Writing one house changes the escrow by its new auctions against its old ones. -/
theorem sum_escrow_update (l : List AuctionEntry) :
    ∑ k, ((Function.update w.auctions h l k).map AuctionEntry.escrow).sum +
      ((w.auctions h).map AuctionEntry.escrow).sum =
      w.escrowed + (l.map AuctionEntry.escrow).sum :=
  Finset.sum_update_add (Finset.mem_univ h) (fun _ l => (l.map AuctionEntry.escrow).sum) _ l

theorem ledger_setAuction (hw : ((w.auctions h).map AuctionEntry.id).Nodup)
    (hb : w.getAuction h a.id = some b) :
    (w.setAuction h a).ledger + b.escrow = w.ledger + a.escrow := by
  have hlist := sum_replace AuctionEntry.escrow hw hb
  have hescrow : (w.setAuction h a).escrowed + ((w.auctions h).map AuctionEntry.escrow).sum = _ :=
    w.sum_escrow_update (replace AuctionEntry.id (w.auctions h) a)
  have hgold : (w.setAuction h a).gold = w.gold := rfl
  have hmail : (w.setAuction h a).mailGold = w.mailGold := rfl
  unfold ledger
  omega

theorem ledger_removeAuction (hw : ((w.auctions h).map AuctionEntry.id).Nodup)
    (hb : w.getAuction h a.id = some b) : (w.removeAuction h a).ledger + b.escrow = w.ledger := by
  have hlist := sum_remove AuctionEntry.escrow hw hb
  have hescrow : (w.removeAuction h a).escrowed + ((w.auctions h).map AuctionEntry.escrow).sum = _ :=
    w.sum_escrow_update (remove AuctionEntry.id (w.auctions h) a.id)
  have hgold : (w.removeAuction h a).gold = w.gold := rfl
  have hmail : (w.removeAuction h a).mailGold = w.mailGold := rfl
  unfold ledger
  omega

/-! ## What each primitive keeps -/

theorem WF.modify {n : ℕ} (hw : w.WF) (hn : n ≤ w.money p) : (w.modify p (-toI64 n)).WF := by
  refine ⟨hw.nodup, hw.zero, hw.owner, hw.bidder, hw.bid, hw.buyout, hw.below, fun q => ?_⟩
  rw [money_modify (hw.money p) hn]
  by_cases hq : q = p
  · subst hq
    rw [Function.update_self]
    exact (Nat.sub_le _ _).trans (hw.money q)
  · rw [Function.update_of_ne hq]
    exact hw.money q

theorem WF.sendMail (hw : w.WF) (m : AuctionMail) : (w.sendMail m).WF := by
  refine ⟨?_, ?_, ?_, ?_, ?_, ?_, ?_, ?_⟩
  all_goals simp only [auctions_sendMail, characters_sendMail, money_sendMail]
  exacts [hw.nodup, hw.zero, hw.owner, hw.bidder, hw.bid, hw.buyout, hw.below, hw.money]

/-- A world whose houses hold, up to new auctions that are in order, only auctions of `w`. -/
theorem WF.of_auctions {w' : AuctionWorld} (hw : w.WF) (hc : w'.characters = w.characters)
    (hm : w'.money = w.money) (hn : ∀ k, ((w'.auctions k).map AuctionEntry.id).Nodup)
    (hmem : ∀ k, ∀ b ∈ w'.auctions k, b ∈ w.auctions k ∨
      b.owner ∈ w.characters ∧ b.bidder ∈ w.characters ∧ b.bid < 2 ^ 32 ∧ b.buyout < 2 ^ 32 ∧
        (b.buyout ≠ 0 → b.bid < b.buyout)) : w'.WF := by
  refine ⟨hn, hc ▸ hw.zero, fun k b hb => ?_, fun k b hb h0 => ?_, fun k b hb => ?_,
    fun k b hb => ?_, fun k b hb h0 hbuy => ?_, fun q => hm ▸ hw.money q⟩
  all_goals rcases hmem k b hb with hold | ⟨h1, h2, h3, h4, h5⟩
  · exact hc ▸ hw.owner k b hold
  · exact hc ▸ h1
  · exact hc ▸ hw.bidder k b hold h0
  · exact hc ▸ h2
  · exact hw.bid k b hold
  · exact h3
  · exact hw.buyout k b hold
  · exact h4
  · exact hw.below k b hold h0 hbuy
  · exact h5 hbuy

theorem WF.setAuction (hw : w.WF) (ho : a.owner ∈ w.characters) (hb : a.bidder ∈ w.characters)
    (hbid : a.bid < 2 ^ 32) (hbuy : a.buyout < 2 ^ 32) (hlt : a.buyout ≠ 0 → a.bid < a.buyout) :
    (w.setAuction h a).WF := by
  refine hw.of_auctions rfl rfl (fun k => ?_) fun k b hmem => ?_
  · by_cases hk : k = h
    · subst hk
      simpa only [AuctionWorld.setAuction, Function.update_self, map_key_replace]
        using hw.nodup k
    · simpa only [AuctionWorld.setAuction, Function.update_of_ne hk] using hw.nodup k
  · by_cases hk : k = h
    · subst hk
      simp only [AuctionWorld.setAuction, Function.update_self] at hmem
      rcases mem_replace hmem with rfl | hold
      · exact .inr ⟨ho, hb, hbid, hbuy, hlt⟩
      · exact .inl hold
    · simp only [AuctionWorld.setAuction, Function.update_of_ne hk] at hmem
      exact .inl hmem

theorem WF.removeAuction (hw : w.WF) : (w.removeAuction h a).WF := by
  refine hw.of_auctions rfl rfl (fun k => ?_) fun k b hmem => .inl ?_
  · by_cases hk : k = h
    · subst hk
      simpa only [AuctionWorld.removeAuction, Function.update_self]
        using nodup_remove (hw.nodup k) a.id
    · simpa only [AuctionWorld.removeAuction, Function.update_of_ne hk] using hw.nodup k
  · by_cases hk : k = h
    · subst hk
      simp only [AuctionWorld.removeAuction, Function.update_self] at hmem
      exact (mem_remove.1 hmem).1
    · simpa only [AuctionWorld.removeAuction, Function.update_of_ne hk] using hmem

/-! ## Charging a bidder -/

/-- The mail that gives the last bidder his bid back, when somebody else takes over. -/
def refund (w : AuctionWorld) (player : ℕ) (a : AuctionEntry) : AuctionWorld :=
  if a.bidder ≠ 0 ∧ a.bidder ≠ player then w.sendAuctionOutbiddedMail a else w

/-- Refund the last bidder and take from the player what `n` exceeds his own standing bid. -/
def charge (w : AuctionWorld) (player : ℕ) (a : AuctionEntry) (n : ℕ) : AuctionWorld :=
  (w.refund player a).modify player (-toI64 (n - a.ownBid player : ℕ))

variable {n price : ℕ}

@[simp] theorem characters_refund : (w.refund p a).characters = w.characters := by
  unfold refund sendAuctionOutbiddedMail
  split_ifs <;> simp

@[simp] theorem auctions_refund : (w.refund p a).auctions = w.auctions := by
  unfold refund sendAuctionOutbiddedMail
  split_ifs <;> simp

@[simp] theorem money_refund : (w.refund p a).money = w.money := by
  unfold refund sendAuctionOutbiddedMail
  split_ifs <;> simp

theorem WF.refund (hw : w.WF) : (w.refund p a).WF := by
  unfold AuctionWorld.refund
  split_ifs
  · exact hw.sendMail _
  · exact hw

/-- The refund puts the escrow that is not the player's own into a mail. -/
theorem ledger_refund (hw : w.WF) (hp : p ∈ w.characters) (ha : a ∈ w.auctions h) :
    (w.refund p a).ledger + a.ownBid p = w.ledger + a.escrow := by
  have hp0 : p ≠ 0 := fun h0 => hw.zero (h0 ▸ hp)
  unfold refund AuctionEntry.ownBid AuctionEntry.escrow
  by_cases h0 : a.bidder = 0
  · simp [h0, hp0.symm]
  · by_cases hown : a.bidder = p
    · simp [hown, hp0]
    · rw [if_pos ⟨h0, hown⟩, if_neg hown, if_pos h0, sendAuctionOutbiddedMail,
        ledger_sendMail (hw.bidder h a ha h0), add_zero]

theorem WF.charge (hw : w.WF) (hn : n ≤ w.money p) : (w.charge p a n).WF := by
  refine hw.refund.modify ?_
  rw [money_refund]
  omega

theorem ledger_charge (hw : w.WF) (hp : p ∈ w.characters) (ha : a ∈ w.auctions h)
    (hn : n ≤ w.money p) (hown : a.ownBid p ≤ n) :
    (w.charge p a n).ledger + n = w.ledger + a.escrow := by
  have hle : n - a.ownBid p ≤ (w.refund p a).money p := by
    rw [money_refund]
    omega
  have hpaid := ledger_modify (w := w.refund p a) (by simpa using hp) (hw.refund.money p) hle
  have hback := ledger_refund hw hp ha
  unfold charge
  omega

/-- The player pays `n` against his own standing bid. -/
theorem money_charge (hw : w.WF) (hn : n ≤ w.money p) (hown : a.ownBid p ≤ n) :
    (w.charge p a n).money p + n = w.money p + a.ownBid p := by
  have hle : n - a.ownBid p ≤ (w.refund p a).money p := by
    rw [money_refund]
    omega
  rw [charge, money_modify (hw.refund.money p) hle, Function.update_self, money_refund]
  omega

theorem ownBid_eq_of_ne (hne : a.bidder ≠ p) : a.ownBid p = 0 :=
  if_neg hne

theorem placeBid_eq (hw : w.WF) (hp : p ∈ w.characters) (hbid : a.bid < price) (h32 : price < 2 ^ 32) :
    w.placeBid h p a price =
      (w.charge p a price).setAuction h { a with bidder := p, bid := price } := by
  have hp0 : p ≠ 0 := fun h0 => hw.zero (h0 ▸ hp)
  have hsub : toU64 ((price : ℤ) - a.bid) = price - a.bid := by
    unfold toU64
    omega
  unfold placeBid charge refund
  rw [toU32_of_lt h32]
  by_cases hown : a.bidder = p
  · simp [hown, hp0, Nat.pos_of_ne_zero, hsub, AuctionEntry.ownBid]
  · rw [ownBid_eq_of_ne hown, Nat.sub_zero]
    by_cases h0 : a.bidder = 0
    · simp [h0]
    · simp [h0, hown, Nat.pos_of_ne_zero]

theorem modify_sendMail (m : AuctionMail) (z : ℤ) :
    (w.modify p z).sendMail m = (w.sendMail m).modify p z := by
  unfold sendMail modify
  split_ifs <;> rfl

/-- The mails of a sale, in the order of `AuctionHouseObject::Update`. -/
def settle (w : AuctionWorld) (cfg : AuctionConfig) (h : AuctionHouse) (a : AuctionEntry) :
    AuctionWorld :=
  ((w.sendAuctionSuccessfulMail cfg a).sendAuctionWonMail a).removeAuction h a

theorem placeBuyout_eq (cfg : AuctionConfig) (hw : w.WF) (hp : p ∈ w.characters)
    (ha : a ∈ w.auctions h) (hbuy : a.buyout ≠ 0) :
    w.placeBuyout cfg h p a =
      ((w.charge p a a.buyout).sendAuctionSalePendingMail (a.soldTo p)).settle cfg h
        (a.soldTo p) := by
  have hp0 : p ≠ 0 := fun h0 => hw.zero (h0 ▸ hp)
  have h32 := hw.buyout h a ha
  unfold placeBuyout settle charge refund
  by_cases hown : a.bidder = p
  · have hlt := hw.below h a ha (hown ▸ hp0) hbuy
    have hsub : toU32 ((a.buyout : ℤ) - a.bid) = a.buyout - a.bid := by
      unfold toU32
      omega
    simp [hown, hsub, AuctionEntry.ownBid]
  · rw [ownBid_eq_of_ne hown, Nat.sub_zero]
    by_cases h0 : a.bidder = 0
    · simp [h0, hp0]
    · simp [h0, hown, Ne.symm hown, sendAuctionOutbiddedMail, modify_sendMail]

/-! ## The sale -/

theorem ledger_sendMail_of_money_eq_zero (hm : m.money = 0) : (w.sendMail m).ledger = w.ledger := by
  by_cases hr : m.receiver ∈ w.characters
  · rw [ledger_sendMail hr, hm, add_zero]
  · rw [sendMail, if_neg hr]

theorem count_sendMail_of_ne {m' : AuctionMail} (hne : m' ≠ m) :
    (w.sendMail m').mails.count m = w.mails.count m := by
  unfold sendMail
  split_ifs
  · exact count_cons_of_ne hne
  · rfl

theorem count_sendMail_self (hm : m.receiver ∈ w.characters) :
    (w.sendMail m).mails.count m = w.mails.count m + 1 := by
  rw [mails_sendMail hm, count_cons_self]

@[simp] theorem auctions_sendAuctionWonMail : (w.sendAuctionWonMail a).auctions = w.auctions := by
  unfold sendAuctionWonMail
  split_ifs <;> simp

theorem WF.sendAuctionWonMail (hw : w.WF) : (w.sendAuctionWonMail a).WF := by
  unfold AuctionWorld.sendAuctionWonMail
  split_ifs
  · exact hw.sendMail _
  · exact hw

/-- Settling an auction keeps what the server guarantees. -/
theorem WF.settle (hw : w.WF) (cfg : AuctionConfig) : (w.settle cfg h a).WF :=
  (hw.sendMail _).sendAuctionWonMail.removeAuction

/-- The owner's share of a sale fits its 32-bit word. -/
def FitsSale (cfg : AuctionConfig) (a : AuctionEntry) : Prop :=
  a.getAuctionCut cfg ≤ a.bid + a.deposit ∧ a.bid + a.deposit - a.getAuctionCut cfg < 2 ^ 32

/-- What a sale does to the ledger : the deposit comes back and the cut is kept. -/
def saleChange (cfg : AuctionConfig) (a : AuctionEntry) : ℤ :=
  a.deposit - a.getAuctionCut cfg

theorem profit_eq {cfg : AuctionConfig} (hfit : FitsSale cfg a) :
    (a.profit cfg : ℤ) = a.bid + saleChange cfg a := by
  obtain ⟨hcut, h32⟩ := hfit
  rw [AuctionEntry.profit, toU32_of_range (by omega) (by omega), saleChange, add_sub_assoc]

/-- A sale trades the escrow of the auction for the owner's share. -/
theorem ledger_settle {cfg : AuctionConfig} (hw : w.WF) (hfit : FitsSale cfg a)
    (ho : a.owner ∈ w.characters) (hb : w.getAuction h a.id = some b) :
    ((w.settle cfg h a).ledger : ℤ) + b.escrow = w.ledger + a.bid + saleChange cfg a := by
  have hmail : ((w.sendAuctionSuccessfulMail cfg a).sendAuctionWonMail a).ledger =
      w.ledger + a.profit cfg := by
    rw [← ledger_sendMail (m := ⟨.successful, a.owner, a.profit cfg, none⟩) ho]
    unfold sendAuctionWonMail
    split_ifs
    · exact ledger_sendMail_of_money_eq_zero rfl
    · rfl
  have hbook := ledger_removeAuction (w := (w.sendAuctionSuccessfulMail cfg a).sendAuctionWonMail a)
    (h := h) (a := a) (b := b) (by simpa [sendAuctionSuccessfulMail] using hw.nodup h)
    (by simpa [getAuction, sendAuctionSuccessfulMail] using hb)
  have hprofit := profit_eq hfit
  unfold settle
  omega

theorem count_settle {cfg : AuctionConfig} (h1 : m.answer ≠ .successful) (h2 : m.answer ≠ .won) :
    (w.settle cfg h a).mails.count m = w.mails.count m := by
  have hfirst : (w.sendAuctionSuccessfulMail cfg a).mails.count m = w.mails.count m :=
    count_sendMail_of_ne (by rintro rfl; exact h1 rfl)
  have hnext : ((w.sendAuctionSuccessfulMail cfg a).sendAuctionWonMail a).mails.count m =
      (w.sendAuctionSuccessfulMail cfg a).mails.count m := by
    unfold sendAuctionWonMail
    split_ifs
    · exact count_sendMail_of_ne (by rintro rfl; exact h2 rfl)
    · rfl
  exact hnext.trans hfirst

theorem getAuction_settle (cfg : AuctionConfig) : (w.settle cfg h a).getAuction h a.id = none := by
  simp [settle, getAuction, removeAuction, find_remove_self]

/-! ## Each request -/

variable {cfg : AuctionConfig} {house : Option AuctionHouse} {id : ℕ}
  {r : AuctionWorld × Option AuctionError}

theorem handleAuctionPlaceBid_cases (hr : w.handleAuctionPlaceBid cfg house p id price = r) :
    (r.1 = w ∧ r.2 ≠ some .ok) ∨
    ∃ h a, house = some h ∧ w.getAuction h id = some a ∧ a.bid < price ∧ price ≤ w.money p ∧
      r.2 = some .ok ∧
      ((price < a.buyout ∨ a.buyout = 0) ∧ r.1 = w.placeBid h p a price ∨
        (a.buyout ≠ 0 ∧ a.buyout ≤ price) ∧ r.1 = w.placeBuyout cfg h p a) := by
  unfold handleAuctionPlaceBid at hr
  split at hr
  · subst hr
    simp
  · split at hr
    · subst hr
      simp
    · rename_i h
      split at hr
      · subst hr
        simp
      · rename_i a ha
        split_ifs at hr with h1 h2 h3 h4 h5 <;> subst hr
        · simp
        · simp
        · simp
        · simp only [hasEnoughMoney, decide_eq_true_eq] at h4
          exact .inr ⟨h, a, rfl, ha, by omega, h4, rfl, .inl ⟨h5, rfl⟩⟩
        · simp only [hasEnoughMoney, decide_eq_true_eq] at h4
          exact .inr ⟨h, a, rfl, ha, by omega, h4, rfl, .inr ⟨by omega, rfl⟩⟩
        · simp

theorem handleAuctionRemoveItem_cases (hr : w.handleAuctionRemoveItem cfg house p id = r) :
    (r.1 = w ∧ r.2 ≠ some .ok) ∨
    ∃ h a, house = some h ∧ w.getAuction h id = some a ∧ a.owner = p ∧ r.2 = some .ok ∧
      ((a.bidder = 0 ∧
          r.1 = (w.sendMail ⟨.canceled, p, 0, some a.itemGUIDLow⟩).removeAuction h a) ∨
        (a.bidder ≠ 0 ∧ a.getAuctionCut cfg ≤ w.money p ∧
          r.1 = (((w.sendAuctionCancelledToBidderMail a).modify p
            (-toI64 (a.getAuctionCut cfg))).sendMail
            ⟨.canceled, p, 0, some a.itemGUIDLow⟩).removeAuction h a)) := by
  unfold handleAuctionRemoveItem at hr
  split at hr
  · subst hr
    simp
  · rename_i h
    split at hr
    · subst hr
      simp
    · rename_i a ha
      split_ifs at hr with h1 h2 h3 h4 <;> subst hr
      · simp
      · simp
      · refine .inr ⟨h, a, rfl, ha, not_not.1 h1, rfl, .inr ⟨h4.ne', ?_, rfl⟩⟩
        simp only [hasEnoughMoney, decide_eq_true_eq, h4, true_and, not_not] at h3
        exact h3
      · exact .inr ⟨h, a, rfl, ha, not_not.1 h1, rfl, .inl ⟨by omega, rfl⟩⟩
      · simp

theorem expireAuction_cases (cfg : AuctionConfig) (w : AuctionWorld) (h : AuctionHouse) (id : ℕ) :
    (w.getAuction h id = none ∧ w.expireAuction cfg h id = w) ∨
    ∃ a, w.getAuction h id = some a ∧
      ((a.bidder = 0 ∧
          w.expireAuction cfg h id = (w.sendAuctionExpiredMail a).removeAuction h a) ∨
        (a.bidder ≠ 0 ∧ w.expireAuction cfg h id = w.settle cfg h a)) := by
  unfold expireAuction
  split
  · exact .inl ⟨‹_›, rfl⟩
  · rename_i a ha
    refine .inr ⟨a, ha, ?_⟩
    by_cases h0 : a.bidder = 0
    · exact .inl ⟨h0, by simp [h0]⟩
    · exact .inr ⟨h0, by simp [h0, settle]⟩

/-- An accepted bid or buyout : the player is debited exactly what is escrowed for him, or
paid at the sale, against his own standing bid, and the last bidder gets his bid back. -/
structure Charged (w w' : AuctionWorld) (h : AuctionHouse) (p : ℕ) (a : AuctionEntry) : Prop where
  debit : ∃ n, w'.money p + n = w.money p + a.ownBid p ∧
    (w'.getAuction h a.id = some { a with bidder := p, bid := n } ∨
      w'.getAuction h a.id = none ∧ n = a.buyout)
  refund : a.bidder ≠ 0 → a.bidder ≠ p →
    w'.mails.count ⟨.outbidded, a.bidder, a.bid, none⟩ =
      w.mails.count ⟨.outbidded, a.bidder, a.bid, none⟩ + 1

theorem count_charge (hw : w.WF) (ha : a ∈ w.auctions h) (h0 : a.bidder ≠ 0) (hne : a.bidder ≠ p) :
    (w.charge p a n).mails.count ⟨.outbidded, a.bidder, a.bid, none⟩ =
      w.mails.count ⟨.outbidded, a.bidder, a.bid, none⟩ + 1 := by
  rw [charge, mails_modify, refund, if_pos ⟨h0, hne⟩]
  exact count_sendMail_self (hw.bidder h a ha h0)

theorem ownBid_le (hw : w.WF) (ha : a ∈ w.auctions h) (hp : p ≠ 0) (hbuy : a.buyout ≠ 0) :
    a.ownBid p ≤ a.buyout := by
  unfold AuctionEntry.ownBid
  split_ifs with hown
  · exact (hw.below h a ha (hown ▸ hp) hbuy).le
  · exact Nat.zero_le _

theorem placeBid_spec (hw : w.WF) (hp : p ∈ w.characters) (ha : w.getAuction h id = some a)
    (hbid : a.bid < price) (hmoney : price ≤ w.money p)
    (hbuy : price < a.buyout ∨ a.buyout = 0) (h32 : a.buyout = 0 → price < 2 ^ 32) :
    (w.placeBid h p a price).WF ∧ (w.placeBid h p a price).ledger = w.ledger ∧
      Charged w (w.placeBid h p a price) h p a := by
  obtain ⟨hmem, rfl⟩ := mem_of_getAuction ha
  have hbuy32 := hw.buyout h a hmem
  have hprice : price < 2 ^ 32 := by omega
  have hp0 : p ≠ 0 := fun h0 => hw.zero (h0 ▸ hp)
  have hown : a.ownBid p ≤ price := by
    unfold AuctionEntry.ownBid
    split_ifs <;> omega
  have hcharged : (w.charge p a price).getAuction h a.id = some a := by
    simpa [charge, getAuction] using ha
  rw [placeBid_eq hw hp hbid hprice]
  refine ⟨?_, ?_, ⟨price, ?_, .inl ?_⟩, fun h0 hne => ?_⟩
  · refine (hw.charge hmoney).setAuction ?_ ?_ hprice hbuy32 ?_
    · simpa [charge] using hw.owner h a hmem
    · simpa [charge] using hp
    · intro hb
      simp only at hb ⊢
      omega
  · have hbook := ledger_setAuction (w := w.charge p a price)
      (a := { a with bidder := p, bid := price }) ((hw.charge hmoney).nodup h) hcharged
    have hpaid := ledger_charge hw hp hmem hmoney hown
    simp only [AuctionEntry.escrow, if_pos hp0] at hbook hpaid
    omega
  · exact money_charge hw hmoney hown
  · have hfind : find AuctionEntry.id ((w.charge p a price).auctions h)
        ({ a with bidder := p, bid := price } : AuctionEntry).id = some a := hcharged
    simpa [getAuction, setAuction] using find_replace_self hfind
  · exact count_charge (n := price) hw hmem h0 hne

theorem money_settle : (w.settle cfg h a).money = w.money := by
  unfold settle sendAuctionWonMail
  split_ifs <;> simp [removeAuction, sendAuctionSuccessfulMail]

theorem placeBuyout_spec (hw : w.WF) (hp : p ∈ w.characters) (ha : w.getAuction h id = some a)
    (hmoney : a.buyout ≤ w.money p) (hbuy : a.buyout ≠ 0) (hfit : FitsSale cfg (a.soldTo p)) :
    (w.placeBuyout cfg h p a).WF ∧
      ((w.placeBuyout cfg h p a).ledger : ℤ) = w.ledger + saleChange cfg (a.soldTo p) ∧
      Charged w (w.placeBuyout cfg h p a) h p a := by
  obtain ⟨hmem, rfl⟩ := mem_of_getAuction ha
  have hp0 : p ≠ 0 := fun h0 => hw.zero (h0 ▸ hp)
  have hown := ownBid_le hw hmem hp0 hbuy
  have hpending : ((w.charge p a a.buyout).sendAuctionSalePendingMail (a.soldTo p)).WF :=
    (hw.charge hmoney).sendMail _
  rw [placeBuyout_eq cfg hw hp hmem hbuy]
  refine ⟨hpending.settle cfg, ?_, ⟨a.buyout, ?_, .inr ⟨?_, rfl⟩⟩, fun h0 hne => ?_⟩
  · have hsale := ledger_settle (h := h) (a := a.soldTo p) (b := a) hpending hfit
      (by simpa [charge, sendAuctionSalePendingMail] using hw.owner h a hmem)
      (by simpa [charge, getAuction, sendAuctionSalePendingMail] using ha)
    have hmail : ((w.charge p a a.buyout).sendAuctionSalePendingMail (a.soldTo p)).ledger =
        (w.charge p a a.buyout).ledger := ledger_sendMail_of_money_eq_zero rfl
    have hpaid := ledger_charge hw hp hmem hmoney hown
    rw [AuctionEntry.bid_soldTo] at hsale
    omega
  · rw [money_settle, sendAuctionSalePendingMail, money_sendMail]
    exact money_charge hw hmoney hown
  · exact getAuction_settle cfg
  · rw [← count_charge (n := a.buyout) hw hmem h0 hne]
    exact (count_settle (by simp) (by simp)).trans (count_sendMail_of_ne (by simp))

/-- A cancelled auction gives its bidder the escrow back. -/
theorem cancel_spec (hw : w.WF) (hp : p ∈ w.characters) (ha : w.getAuction h id = some a)
    (h0 : a.bidder ≠ 0) (hcut : a.getAuctionCut cfg ≤ w.money p) :
    let w' := (((w.sendAuctionCancelledToBidderMail a).modify p
      (-toI64 (a.getAuctionCut cfg))).sendMail
      ⟨.canceled, p, 0, some a.itemGUIDLow⟩).removeAuction h a
    w'.WF ∧ w'.ledger + a.getAuctionCut cfg = w.ledger ∧
      w'.mails.count ⟨.cancelledToBidder, a.bidder, a.bid, none⟩ =
        w.mails.count ⟨.cancelledToBidder, a.bidder, a.bid, none⟩ + 1 := by
  obtain ⟨hmem, rfl⟩ := mem_of_getAuction ha
  have hsent : (w.sendAuctionCancelledToBidderMail a).WF := hw.sendMail _
  have hcut' : a.getAuctionCut cfg ≤ (w.sendAuctionCancelledToBidderMail a).money p := by
    simpa [sendAuctionCancelledToBidderMail] using hcut
  have hpaid := (hsent.modify hcut').sendMail ⟨.canceled, p, 0, some a.itemGUIDLow⟩
  refine ⟨hpaid.removeAuction, ?_, ?_⟩
  · have hbook := ledger_removeAuction (a := a) (b := a) (hpaid.nodup h)
      (by simpa [getAuction, sendAuctionCancelledToBidderMail] using ha)
    have hdebit := ledger_modify (w := w.sendAuctionCancelledToBidderMail a)
      (by simpa [sendAuctionCancelledToBidderMail] using hp) (hsent.money p) hcut'
    have hback : (w.sendAuctionCancelledToBidderMail a).ledger = w.ledger + a.bid :=
      ledger_sendMail (hw.bidder h a hmem h0)
    rw [ledger_sendMail_of_money_eq_zero rfl, AuctionEntry.escrow, if_pos h0] at hbook
    omega
  · refine (count_sendMail_of_ne (by simp)).trans ?_
    exact count_sendMail_self (hw.bidder h a hmem h0)

/-- Taking an auction without bidder off the house leaves the ledger as it is. -/
theorem ledger_removeAuction_sendMail (hw : w.WF) (ha : w.getAuction h a.id = some a)
    (h0 : a.bidder = 0) (hm : m.money = 0) :
    ((w.sendMail m).removeAuction h a).ledger = w.ledger := by
  have hbook := ledger_removeAuction (a := a) (b := a) ((hw.sendMail m).nodup h)
    (by simpa [getAuction] using ha)
  rw [ledger_sendMail_of_money_eq_zero hm, AuctionEntry.escrow, if_neg (not_not.2 h0)] at hbook
  exact hbook

/-- What the expiry of the auction `id` does to the ledger. -/
def expireChange (cfg : AuctionConfig) (w : AuctionWorld) (h : AuctionHouse) (id : ℕ) : ℤ :=
  match w.getAuction h id with
  | none => 0
  | some a => if a.bidder ≠ 0 then saleChange cfg a else 0

/-- The expiry of the auction `id` does not wrap around. -/
def ExpireFits (cfg : AuctionConfig) (w : AuctionWorld) (h : AuctionHouse) (id : ℕ) : Prop :=
  ∀ a, w.getAuction h id = some a → a.bidder ≠ 0 → FitsSale cfg a

theorem expireAuction_spec (hw : w.WF) (hfit : ExpireFits cfg w h id) :
    (w.expireAuction cfg h id).WF ∧
      ((w.expireAuction cfg h id).ledger : ℤ) = w.ledger + expireChange cfg w h id := by
  rcases expireAuction_cases cfg w h id with ⟨ha, heq⟩ | ⟨a, ha, ⟨h0, heq⟩ | ⟨h0, heq⟩⟩
  · simp [heq, hw, expireChange, ha]
  · obtain ⟨hmem, rfl⟩ := mem_of_getAuction ha
    rw [heq]
    simp only [expireChange, ha, h0, ne_eq, not_true_eq_false, if_false, add_zero, Nat.cast_inj]
    unfold sendAuctionExpiredMail
    split_ifs
    · exact ⟨(hw.sendMail _).removeAuction, ledger_removeAuction_sendMail hw ha h0 rfl⟩
    · refine ⟨hw.removeAuction, ?_⟩
      have hbook := ledger_removeAuction (a := a) (hw.nodup h) ha
      rwa [AuctionEntry.escrow, if_neg (not_not.2 h0)] at hbook
  · obtain ⟨hmem, rfl⟩ := mem_of_getAuction ha
    have hsale := ledger_settle hw (hfit a ha h0) (hw.owner h a hmem) ha
    rw [heq]
    refine ⟨hw.settle cfg, ?_⟩
    simp only [AuctionEntry.escrow, if_pos h0] at hsale
    simp only [expireChange, ha, if_pos h0]
    omega

@[simp] theorem auctions_sendAuctionExpiredMail :
    (w.sendAuctionExpiredMail a).auctions = w.auctions := by
  unfold sendAuctionExpiredMail
  split_ifs <;> simp

/-- Expiring one auction takes it off its house and leaves the others alone. -/
theorem getAuction_expireAuction (cfg : AuctionConfig) (w : AuctionWorld) (h : AuctionHouse)
    (id j : ℕ) : (w.expireAuction cfg h id).getAuction h j =
      if j = id then none else w.getAuction h j := by
  have hremove : ∀ a : AuctionEntry, a.id = id →
      find AuctionEntry.id (remove AuctionEntry.id (w.auctions h) a.id) j =
        if j = id then none else w.getAuction h j := by
    rintro a rfl
    split_ifs with hj
    · rw [hj, find_remove_self]
    · rw [find_remove_of_ne hj, getAuction]
  rcases expireAuction_cases cfg w h id with ⟨ha, heq⟩ | ⟨a, ha, ⟨_, heq⟩ | ⟨_, heq⟩⟩ <;> rw [heq]
  · split_ifs with hj
    · rw [hj, ha]
    · rfl
  · simpa [getAuction, removeAuction] using hremove a (mem_of_getAuction ha).2
  · simpa [settle, getAuction, removeAuction, sendAuctionSuccessfulMail]
      using hremove a (mem_of_getAuction ha).2

theorem expireChange_expireAuction (j : ℕ) : expireChange cfg (w.expireAuction cfg h id) h j =
    if j = id then 0 else expireChange cfg w h j := by
  unfold expireChange
  rw [getAuction_expireAuction]
  split_ifs <;> rfl

/-- The rows of an update settle one after the other, each auction once. -/
theorem update_spec : ∀ {rows : List ℕ} {w : AuctionWorld}, w.WF →
    (∀ id ∈ rows, ExpireFits cfg w h id) → (w.update cfg h rows).WF ∧
      ((w.update cfg h rows).ledger : ℤ) =
        w.ledger + ∑ id ∈ rows.toFinset, expireChange cfg w h id
  | [], w, hw, _ => by simp [update, hw]
  | id :: rows, w, hw, hfit => by
    obtain ⟨hw', hled⟩ := expireAuction_spec hw (hfit id mem_cons_self)
    have hrest : ∀ j ∈ rows, ExpireFits cfg (w.expireAuction cfg h id) h j := by
      intro j hj a ha h0
      rw [getAuction_expireAuction] at ha
      split_ifs at ha
      exact hfit j (mem_cons_of_mem _ hj) a ha h0
    obtain ⟨hwf, hsum⟩ := update_spec hw' hrest
    refine ⟨hwf, ?_⟩
    have hsplit : ∑ j ∈ (id :: rows).toFinset, expireChange cfg w h j =
        expireChange cfg w h id +
          ∑ j ∈ rows.toFinset, expireChange cfg (w.expireAuction cfg h id) h j := by
      have hzero : expireChange cfg (w.expireAuction cfg h id) h id = 0 := by
        rw [expireChange_expireAuction, if_pos rfl]
      rw [toFinset_cons, ← Finset.add_sum_erase _ _ (Finset.mem_insert_self id _),
        Finset.erase_insert_eq_erase, ← Finset.sum_erase rows.toFinset hzero]
      congr 1
      refine Finset.sum_congr rfl fun j hj => ?_
      rw [expireChange_expireAuction, if_neg (Finset.ne_of_mem_erase hj)]
    have hstep : w.update cfg h (id :: rows) = (w.expireAuction cfg h id).update cfg h rows := rfl
    rw [hstep, hsum, hled, hsplit, add_assoc]

end AuctionWorld

/-! ## Runs -/

open AuctionWorld

/-- What a request does to the ledger : a buyout and an expired auction with a bidder are
sales, a cancelled auction with a bidder costs the cut. -/
def ledgerChange (cfg : AuctionConfig) (w : AuctionWorld) : AuctionRequest → ℤ
  | .placeBid house player auctionId price =>
    if player ∈ w.characters ∧
        (w.handleAuctionPlaceBid cfg house player auctionId price).2 = some .ok then
      match house.bind fun h => w.getAuction h auctionId with
      | none => 0
      | some a => if price < a.buyout ∨ a.buyout = 0 then 0 else saleChange cfg (a.soldTo player)
    else 0
  | .removeItem house player auctionId =>
    if player ∈ w.characters ∧
        (w.handleAuctionRemoveItem cfg house player auctionId).2 = some .ok then
      match house.bind fun h => w.getAuction h auctionId with
      | none => 0
      | some a => if a.bidder ≠ 0 then -(a.getAuctionCut cfg : ℤ) else 0
    else 0
  | .update house rows => ∑ id ∈ rows.toFinset, expireChange cfg w house id

/-- No amount of the request wraps around : a bid that the player can pay at an auction
without buyout is below `2 ^ 32`, and the owner's share of a sale fits its word. -/
def Narrow (cfg : AuctionConfig) (w : AuctionWorld) : AuctionRequest → Prop
  | .placeBid house player auctionId price =>
    ∀ h a, house = some h → w.getAuction h auctionId = some a →
      hasEnoughMoney (w.money player) price →
        (a.buyout = 0 → price < 2 ^ 32) ∧
        (a.buyout ≠ 0 → a.buyout ≤ price → FitsSale cfg (a.soldTo player))
  | .removeItem _ _ _ => True
  | .update house rows => ∀ id ∈ rows, ExpireFits cfg w house id

/-- A request that is served keeps the books : the ledger moves by its change, a bidder is
debited what is escrowed for him, and the one he replaces, or whose auction is cancelled,
is refunded. -/
structure Settled (cfg : AuctionConfig) (w : AuctionWorld) (r : AuctionRequest) : Prop where
  balance : ((auctionStep cfg w r).ledger : ℤ) = w.ledger + ledgerChange cfg w r
  charged : ∀ h p id price a, r = .placeBid (some h) p id price → p ∈ w.characters →
    (w.handleAuctionPlaceBid cfg (some h) p id price).2 = some .ok →
    w.getAuction h id = some a → Charged w (auctionStep cfg w r) h p a
  cancelled : ∀ h p id a, r = .removeItem (some h) p id → p ∈ w.characters →
    (w.handleAuctionRemoveItem cfg (some h) p id).2 = some .ok →
    w.getAuction h id = some a → a.bidder ≠ 0 →
    (auctionStep cfg w r).mails.count ⟨.cancelledToBidder, a.bidder, a.bid, none⟩ =
      w.mails.count ⟨.cancelledToBidder, a.bidder, a.bid, none⟩ + 1

variable {cfg : AuctionConfig} {w : AuctionWorld}

theorem auctionStep_placeBid {house : Option AuctionHouse} {p id price : ℕ} (hw : w.WF)
    (hn : Narrow cfg w (.placeBid house p id price)) :
    (auctionStep cfg w (.placeBid house p id price)).WF ∧
      Settled cfg w (.placeBid house p id price) := by
  by_cases hp : p ∈ w.characters
  · rcases handleAuctionPlaceBid_cases
      (rfl : w.handleAuctionPlaceBid cfg house p id price = _) with
      ⟨heq, hne⟩ | ⟨h, a, rfl, ha, hbid, hmoney, hok, ⟨hbuy, heq⟩ | ⟨hbuy, heq⟩⟩
    · refine ⟨?_, ?_, ?_, ?_⟩
      · simpa [auctionStep, hp, heq] using hw
      · simp [auctionStep, ledgerChange, heq, hne]
      · rintro h p' id' price' a ⟨⟩ _ hok
        exact absurd hok hne
      · rintro h p' id' a ⟨⟩
    · obtain ⟨h32, -⟩ := hn h a rfl ha (by simpa [hasEnoughMoney] using hmoney)
      obtain ⟨hwf, hled, hcharged⟩ := placeBid_spec hw hp ha hbid hmoney hbuy h32
      refine ⟨?_, ?_, ?_, ?_⟩
      · simpa [auctionStep, hp, heq] using hwf
      · simp [auctionStep, ledgerChange, hp, heq, hok, ha, hbuy, hled]
      · rintro h' p' id' price' a' ⟨⟩ _ _ ha'
        obtain rfl : a = a' := some.inj (ha.symm.trans ha')
        simpa [auctionStep, hp, heq] using hcharged
      · rintro h' p' id' a' ⟨⟩
    · obtain ⟨-, hfit⟩ := hn h a rfl ha (by simpa [hasEnoughMoney] using hmoney)
      obtain ⟨hwf, hled, hcharged⟩ := placeBuyout_spec hw hp ha
        (hbuy.2.trans hmoney) hbuy.1 (hfit hbuy.1 hbuy.2)
      have hnot : ¬(price < a.buyout ∨ a.buyout = 0) := by omega
      refine ⟨?_, ?_, ?_, ?_⟩
      · simpa [auctionStep, hp, heq] using hwf
      · simp [auctionStep, ledgerChange, hp, heq, hok, ha, hnot, hled]
      · rintro h' p' id' price' a' ⟨⟩ _ _ ha'
        obtain rfl : a = a' := some.inj (ha.symm.trans ha')
        simpa [auctionStep, hp, heq] using hcharged
      · rintro h' p' id' a' ⟨⟩
  · refine ⟨?_, ?_, ?_, ?_⟩
    · simpa [auctionStep, hp] using hw
    · simp [auctionStep, ledgerChange, hp]
    · rintro h' p' id' price' a' ⟨⟩ hp'
      exact absurd hp' hp
    · rintro h' p' id' a' ⟨⟩

theorem auctionStep_removeItem {house : Option AuctionHouse} {p id : ℕ} (hw : w.WF) :
    (auctionStep cfg w (.removeItem house p id)).WF ∧
      Settled cfg w (.removeItem house p id) := by
  by_cases hp : p ∈ w.characters
  · rcases handleAuctionRemoveItem_cases
      (rfl : w.handleAuctionRemoveItem cfg house p id = _) with
      ⟨heq, hne⟩ | ⟨h, a, rfl, ha, -, hok, ⟨h0, heq⟩ | ⟨h0, hcut, heq⟩⟩
    · refine ⟨?_, ?_, ?_, ?_⟩
      · simpa [auctionStep, hp, heq] using hw
      · simp [auctionStep, ledgerChange, heq, hne]
      · rintro h p' id' price' a ⟨⟩
      · rintro h p' id' a ⟨⟩ _ hok
        exact absurd hok hne
    · obtain ⟨-, rfl⟩ := mem_of_getAuction ha
      have hled := ledger_removeAuction_sendMail (m := ⟨.canceled, p, 0, some a.itemGUIDLow⟩)
        hw ha h0 rfl
      refine ⟨?_, ?_, ?_, ?_⟩
      · simpa [auctionStep, hp, heq] using (hw.sendMail _).removeAuction
      · simp [auctionStep, ledgerChange, hp, heq, hok, ha, h0, hled]
      · rintro h' p' id' price' a' ⟨⟩
      · rintro h' p' id' a' ⟨⟩ _ _ ha' h0'
        obtain rfl : a = a' := some.inj (ha.symm.trans ha')
        exact absurd h0 h0'
    · obtain ⟨hwf, hled, hcount⟩ := cancel_spec hw hp ha h0 hcut
      refine ⟨?_, ?_, ?_, ?_⟩
      · simpa [auctionStep, hp, heq] using hwf
      · simp only [auctionStep, ledgerChange, hp, heq, hok, ha, h0, ← hled, and_self, if_true,
          bind_some, ne_eq, not_false_eq_true]
        omega
      · rintro h' p' id' price' a' ⟨⟩
      · rintro h' p' id' a' ⟨⟩ _ _ ha' _
        obtain rfl : a = a' := some.inj (ha.symm.trans ha')
        simpa [auctionStep, hp, heq] using hcount
  · refine ⟨?_, ?_, ?_, ?_⟩
    · simpa [auctionStep, hp] using hw
    · simp [auctionStep, ledgerChange, hp]
    · rintro h' p' id' price' a' ⟨⟩
    · rintro h' p' id' a' ⟨⟩ hp'
      exact absurd hp' hp

/-- A narrow request keeps the world in order and the books balanced. -/
theorem auctionStep_settled (w : AuctionWorld) (r : AuctionRequest) (hw : w.WF)
    (hn : Narrow cfg w r) : (auctionStep cfg w r).WF ∧ Settled cfg w r := by
  cases r with
  | placeBid house p id price => exact auctionStep_placeBid hw hn
  | removeItem house p id => exact auctionStep_removeItem hw
  | update house rows =>
    obtain ⟨hwf, hled⟩ := update_spec (h := house) hw hn
    refine ⟨hwf, hled, ?_, ?_⟩
    · rintro h p id price a ⟨⟩
    · rintro h p id a ⟨⟩

/-- Every run of narrow requests balances at every step. -/
theorem auction_run_balanced {rs : List AuctionRequest} (hw : w.WF)
    (hn : Along (auctionStep cfg) (Narrow cfg) w rs) : Along (auctionStep cfg) (Settled cfg) w rs :=
  Along.of_invariant auctionStep_settled hw hn

/-- The retail rules : the house keeps its percentage and an outbid adds a twentieth. -/
def retailConfig : AuctionConfig :=
  ⟨fun bid cutPercent => bid * cutPercent / 100, fun bid => bid * 5 / 100⟩

/-- Three characters and one auction without buyout, owned by the second. -/
def smallRealm : AuctionWorld where
  characters := {1, 2, 3}
  money p := if p = 1 then 5000000000 else 1000000
  auctions h := if h = .alliance then [⟨7, 70, 2589, 20, 2, 100, 0, 0, 3600, 0, 50, 5⟩] else []
  aItems := {70}
  mails := []

theorem smallRealm_wf : smallRealm.WF := by
  have hmem : ∀ h, ∀ a ∈ smallRealm.auctions h,
      a = ⟨7, 70, 2589, 20, 2, 100, 0, 0, 3600, 0, 50, 5⟩ := by
    intro h a ha
    simp only [smallRealm] at ha
    split_ifs at ha
    · exact mem_singleton.1 ha
    · exact absurd ha not_mem_nil
  refine ⟨fun h => by cases h <;> decide, by decide, fun h a ha => ?_, fun h a ha => ?_,
    fun h a ha => ?_, fun h a ha => ?_, fun h a ha => ?_, fun p => ?_⟩
  · rw [hmem h a ha]
    decide
  · rw [hmem h a ha]
    decide
  · rw [hmem h a ha]
    decide
  · rw [hmem h a ha]
    decide
  · rw [hmem h a ha]
    decide
  · simp only [smallRealm]
    split_ifs <;> decide

/-- A bid, an outbid and the expiry that sells to the last bidder. -/
def smallRun : List AuctionRequest :=
  [.placeBid (some .alliance) 1 7 100, .placeBid (some .alliance) 3 7 200, .update .alliance [7]]

theorem smallRun_narrow :
    Along (auctionStep retailConfig) (Narrow retailConfig) smallRealm smallRun := by
  refine ⟨?_, ?_, ?_, trivial⟩
  · rintro h a ⟨⟩ ha -
    have hbuy : (smallRealm.getAuction .alliance 7).map AuctionEntry.buyout = some 0 := by
      decide +kernel
    rw [ha] at hbuy
    exact ⟨fun _ => by decide, fun h0 => absurd (some.inj hbuy) h0⟩
  · rintro h a ⟨⟩ ha -
    have hbuy : ((auctionStep retailConfig smallRealm
        (.placeBid (some .alliance) 1 7 100)).getAuction .alliance 7).map
        AuctionEntry.buyout = some 0 := by
      decide +kernel
    rw [ha] at hbuy
    exact ⟨fun _ => by decide, fun h0 => absurd (some.inj hbuy) h0⟩
  · rintro id hid a ha -
    obtain rfl := mem_singleton.1 hid
    have hsale : ((run (auctionStep retailConfig) smallRealm [.placeBid (some .alliance) 1 7 100,
        .placeBid (some .alliance) 3 7 200]).getAuction .alliance 7).map
        (fun a => (a.getAuctionCut retailConfig, a.bid, a.deposit)) = some (10, 200, 50) := by
      decide +kernel
    have ha' : (run (auctionStep retailConfig) smallRealm [.placeBid (some .alliance) 1 7 100,
        .placeBid (some .alliance) 3 7 200]).getAuction .alliance 7 = some a := ha
    simp only [ha', map_some, some.injEq, Prod.mk.injEq] at hsale
    unfold AuctionWorld.FitsSale
    omega

theorem auction_run_balanced_smallRun : smallRealm.WF ∧
    Along (auctionStep retailConfig) (Narrow retailConfig) smallRealm smallRun ∧
    Along (auctionStep retailConfig) (Settled retailConfig) smallRealm smallRun :=
  ⟨smallRealm_wf, smallRun_narrow, auction_run_balanced smallRealm_wf smallRun_narrow⟩

/-- A price of `2 ^ 32 + 100` at an auction without buyout is taken from the bidder in full
and escrowed as `100` : the books lose `2 ^ 32`. -/
theorem placeBid_wide_price_lost : smallRealm.WF ∧
    (auctionStep retailConfig smallRealm
      (.placeBid (some .alliance) 1 7 4294967396)).ledger + 2 ^ 32 = smallRealm.ledger ∧
    ¬Along (auctionStep retailConfig) (Settled retailConfig) smallRealm
      [.placeBid (some .alliance) 1 7 4294967396] := by
  have hlost : (auctionStep retailConfig smallRealm
      (.placeBid (some .alliance) 1 7 4294967396)).ledger + 2 ^ 32 = smallRealm.ledger := by
    decide +kernel
  have hchange : ledgerChange retailConfig smallRealm
      (.placeBid (some .alliance) 1 7 4294967396) = 0 := by
    decide +kernel
  refine ⟨smallRealm_wf, hlost, fun hrun => ?_⟩
  have hbal := hrun.1.balance
  omega

end MistyWorld
