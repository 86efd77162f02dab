import MistyWorld.Keyed
import MistyWorld.Money
import MistyWorld.Run

/-!
# Mail

`HandleSendMail`, `HandleMailTakeMoney`, `HandleMailTakeItem`, `HandleMailReturnToSender`
and `HandleMailDelete` on the mails, the players' gold and inventories, and the map of
attached items that a session keeps (`mMitems`).

A mail is a row of the database, whose money and COD columns are 32 bits wide, and, while
its receiver has his mails loaded, an object whose money and COD are 64 bits wide. The
row of an object holds the low words of its fields, so one value is enough : `sendMailTo`
keeps the whole amounts for a receiver with loaded mails and the low words for another,
and `logout` leaves the low words.

Whether an item may be sent or stored is the matter of the inventory : `sendMail` and
`takeItem` take its verdict as a part of the request.
-/

open Function Word Machine

namespace MistyWorld

/-! ## The data -/

/-- `MailMessageType`. -/
inductive MailMessageType
  | normal
  | auction
  | creature
  | gameobject
  | calendar
  deriving DecidableEq, Repr

/-- `MailState`. -/
inductive MailState
  | unchanged
  | changed
  | deleted
  deriving DecidableEq, Repr

/-- The errors of `MailResponseResult` that the handlers send. -/
inductive MailError
  | equipError
  | cannotSendToSelf
  | notEnoughMoney
  | recipientNotFound
  | notYourTeam
  | internalError
  | recipientCapReached
  | cantSendWrappedCod
  | tooManyAttachments
  | mailAttachmentInvalid
  deriving DecidableEq, Repr

/-- What `SendMailResult` answers : nothing, `MAIL_OK` or an error. -/
inductive MailResponse
  | silent
  | ok
  | error (e : MailError)
  deriving DecidableEq, Repr

/-- `Mail`. -/
structure Mail where
  messageID : ℕ
  messageType : MailMessageType
  sender : ℕ
  receiver : ℕ
  items : List ℕ
  deliverTime : ℕ
  money : ℕ
  cod : ℕ
  state : MailState
  deriving DecidableEq, Repr

/-- `MailDraft` : the attached items, the money and the COD. -/
structure MailDraft where
  items : List ℕ
  money : ℕ
  cod : ℕ

/-- The characters with their gold and items, the sessions that have their mails loaded with
their maps of attached items, and all mails. -/
structure MailWorld where
  characters : Finset ℕ
  money : ℕ → ℕ
  inventory : ℕ → List ℕ
  loaded : ℕ → Bool
  mItems : ℕ → List ℕ
  mails : List Mail
  nextMailId : ℕ

/-- `MAX_MAIL_ITEMS`. -/
def maxMailItems : ℕ := 12

namespace MailWorld

variable (w : MailWorld)

/-! ## Delivery -/

/-- What a mail to `receiver` keeps of an amount : the row takes the low word, the object of
a receiver with loaded mails the whole one. -/
def carried (receiver amount : ℕ) : ℕ :=
  if w.loaded receiver then amount else toU32 amount

/-- `MailDraft::SendMailTo`. -/
def sendMailTo (draft : MailDraft) (type : MailMessageType) (sender receiver deliverTime : ℕ) :
    MailWorld :=
  let mail : Mail :=
    { messageID := w.nextMailId
      messageType := type
      sender := sender
      receiver := receiver
      items := draft.items
      deliverTime := deliverTime
      money := w.carried receiver draft.money
      cod := w.carried receiver draft.cod
      state := .unchanged }
  { w with
    nextMailId := w.nextMailId + 1
    mails := mail :: w.mails
    mItems := if w.loaded receiver then
        update w.mItems receiver (draft.items ++ w.mItems receiver)
      else w.mItems }

/-- `Player::ModifyMoney` on a player of the world. -/
def modify (p : ℕ) (amount : ℤ) : MailWorld :=
  { w with money := update w.money p (modifyMoney (w.money p) amount).1 }

/-- `Player::GetMail`, on the mails the session has loaded. -/
def getMail (p mailId : ℕ) : Option Mail :=
  if w.loaded p then
    Keyed.find Mail.messageID (w.mails.filter fun m => m.receiver = p) mailId
  else none

/-- `Player::MoveItemFromInventory`, for the items of a mail. -/
def moveItemsFromInventory (p : ℕ) (items : List ℕ) : MailWorld :=
  { w with inventory := update w.inventory p ((w.inventory p).filter (· ∉ items)) }

/-- `Player::MoveItemToInventory`. -/
def moveItemToInventory (p item : ℕ) : MailWorld :=
  { w with inventory := update w.inventory p (item :: w.inventory p) }

/-- Write a mail back. -/
def setMail (m : Mail) : MailWorld :=
  { w with mails := Keyed.replace Mail.messageID w.mails m }

/-- `Player::RemoveMail`, with the row. -/
def removeMail (mailId : ℕ) : MailWorld :=
  { w with mails := Keyed.remove Mail.messageID w.mails mailId }

/-- `Player::RemoveMItem`. -/
def removeMItem (p item : ℕ) : MailWorld :=
  { w with mItems := update w.mItems p ((w.mItems p).filter (· ≠ item)) }

/-- `Player::_SaveMail` : changed mails are written, deleted ones dropped. -/
def saveMail (p : ℕ) : MailWorld :=
  { w with
    mails := (w.mails.filter fun m => ¬(m.receiver = p ∧ m.state = .deleted)).map fun m =>
      if m.receiver = p ∧ m.state = .changed then { m with state := .unchanged } else m }

/-! ## The requests -/

/-- The postage of `HandleSendMail`. -/
def postage (itemsCount : ℕ) : ℕ :=
  if itemsCount ≠ 0 then 30 * itemsCount else 30

/-- The part of `HandleSendMail` after the checks. -/
def sendChecked (player receiver : ℕ) (money cod : ℕ) (items : List ℕ) (deliverTime : ℕ) :
    MailWorld :=
  let reqmoney := toU64 (postage items.length + money)
  ((w.modify player (-toI64 reqmoney)).moveItemsFromInventory player items).sendMailTo
    ⟨items.dedup, money, toU32 cod⟩ .normal player receiver deliverTime

/-- `WorldSession::HandleSendMail`, for a sender who is no game master. `ready` is the verdict
of the checks on the mailbox, the name and the level, `receiver` the character with the
name, and `refusal` the first failed check on the receiver and the items. -/
def handleSendMail (player : ℕ) (ready : Bool) (receiver : Option ℕ) (money cod : ℕ)
    (items : List ℕ) (refusal : Option MailError) (deliverTime : ℕ) :
    MailWorld × MailResponse :=
  if maxMailItems < items.length then (w, .error .tooManyAttachments)
  else if ¬ready then (w, .silent)
  else
    match receiver.filter (· ∈ w.characters) with
    | none => (w, .error .recipientNotFound)
    | some receiver =>
      if player = receiver then (w, .error .cannotSendToSelf)
      else if ¬hasEnoughMoney (w.money player) (toU64 (postage items.length + money)) then
        (w, .error .notEnoughMoney)
      else if ¬∀ item ∈ items, item ∈ w.inventory player then (w, .error .mailAttachmentInvalid)
      else
        match refusal with
        | some e => (w, .error e)
        | none => (w.sendChecked player receiver money cod items deliverTime, .ok)

/-- `WorldSession::HandleMailTakeMoney`. -/
def handleMailTakeMoney (player mailId money now : ℕ) : MailWorld × MailResponse :=
  match w.getMail player mailId with
  | none => (w, .error .internalError)
  | some m =>
    if m.state = .deleted ∨ now < m.deliverTime ∨ (0 < money ∧ m.money ≠ money) then
      (w, .error .internalError)
    else if ¬(modifyMoney (w.money player) (toI64 m.money)).2 then (w, .error .equipError)
    else
      (((w.modify player (toI64 m.money)).setMail { m with money := 0, state := .changed }).saveMail
        player, .ok)

/-- The part of `HandleMailTakeItem` that pays the COD : a mail to the sender, if his
character exists, and the debit. -/
def payCod (player : ℕ) (m : Mail) (now : ℕ) : MailWorld :=
  if 0 < m.cod then
    let sent := if m.sender ∈ w.characters then
        w.sendMailTo ⟨[], m.cod, 0⟩ .normal m.receiver m.sender now
      else w
    sent.modify player (-toI32 m.cod)
  else w

/-- `WorldSession::HandleMailTakeItem`. `canStore` is the verdict of `CanStoreItem`. -/
def handleMailTakeItem (player mailId item : ℕ) (canStore : Bool) (now : ℕ) :
    MailWorld × MailResponse :=
  match w.getMail player mailId with
  | none => (w, .error .internalError)
  | some m =>
    if m.state = .deleted ∨ now < m.deliverTime then (w, .error .internalError)
    else if ¬hasEnoughMoney (w.money player) m.cod then (w, .error .notEnoughMoney)
    else if ¬(item ∈ w.mItems player ∧ canStore) then (w, .error .equipError)
    else
      let taken := (w.payCod player m now).setMail
        { m with items := m.items.erase item, cod := 0, state := .changed }
      (((taken.removeMItem player item).moveItemToInventory player item).saveMail player, .ok)

/-- `WorldSession::HandleMailReturnToSender`. -/
def handleMailReturnToSender (player mailId now deliverTime : ℕ) : MailWorld × MailResponse :=
  match w.getMail player mailId with
  | none => (w, .error .internalError)
  | some m =>
    if m.state = .deleted ∨ now < m.deliverTime then (w, .error .internalError)
    else
      let removed := w.removeMail mailId
      if m.messageType = .normal ∧ m.sender ≠ 0 then
        let items := (m.items.filter (· ∈ removed.mItems player)).dedup
        let stripped := m.items.foldl (fun w item => w.removeMItem player item) removed
        -- `SendReturnToSender` drops the draft when the character is gone
        if m.sender ∈ w.characters then
          (stripped.sendMailTo ⟨items, m.money, 0⟩ .normal m.receiver m.sender deliverTime,
            .ok)
        else (stripped, .ok)
      else (removed, .ok)

/-- `WorldSession::HandleMailDelete`. -/
def handleMailDelete (player mailId : ℕ) : MailWorld × MailResponse :=
  match w.getMail player mailId with
  | none => (w, .ok)
  | some m =>
    if m.cod ≠ 0 then (w, .error .internalError)
    else (w.setMail { m with state := .deleted }, .ok)

/-- `Player::_LoadMail`. -/
def loadMail (p : ℕ) : MailWorld :=
  if w.loaded p then w
  else
    { w with
      loaded := update w.loaded p true
      mItems := update w.mItems p
        ((w.mails.filter fun m => m.receiver = p).flatMap Mail.items) }

/-- The session ends : the mails are saved and only their rows remain. -/
def logout (p : ℕ) : MailWorld :=
  if w.loaded p then
    let saved := w.saveMail p
    { saved with
      loaded := update saved.loaded p false
      mItems := update saved.mItems p []
      mails := saved.mails.map fun m =>
        if m.receiver = p then { m with money := toU32 m.money, cod := toU32 m.cod } else m }
  else w

end MailWorld

/-- The requests on mails. -/
inductive MailRequest
  | sendMail (player : ℕ) (ready : Bool) (receiver : Option ℕ) (money cod : ℕ) (items : List ℕ)
      (refusal : Option MailError) (deliverTime : ℕ)
  | takeMoney (player mailId money now : ℕ)
  | takeItem (player mailId item : ℕ) (canStore : Bool) (now : ℕ)
  | returnToSender (player mailId now deliverTime : ℕ)
  | delete (player mailId : ℕ)
  | loadMail (player : ℕ)
  | logout (player : ℕ)
  deriving DecidableEq, Repr

/-- The player who makes a request. -/
def MailRequest.player : MailRequest → ℕ
  | .sendMail player _ _ _ _ _ _ _ => player
  | .takeMoney player _ _ _ => player
  | .takeItem player _ _ _ _ => player
  | .returnToSender player _ _ _ => player
  | .delete player _ => player
  | .loadMail player => player
  | .logout player => player

/-- Serve one request of an existing character. -/
def mailServe (w : MailWorld) : MailRequest → MailWorld × MailResponse
  | .sendMail player ready receiver money cod items refusal deliverTime =>
    w.handleSendMail player ready receiver money cod items refusal deliverTime
  | .takeMoney player mailId money now => w.handleMailTakeMoney player mailId money now
  | .takeItem player mailId item canStore now =>
    w.handleMailTakeItem player mailId item canStore now
  | .returnToSender player mailId now deliverTime =>
    w.handleMailReturnToSender player mailId now deliverTime
  | .delete player mailId => w.handleMailDelete player mailId
  | .loadMail player => (w.loadMail player, .silent)
  | .logout player => (w.logout player, .silent)

/-- One step of the mail system. Only existing characters have a session. -/
def mailStep (w : MailWorld) (r : MailRequest) : MailWorld :=
  if r.player ∈ w.characters then (mailServe w r).1 else w

/-! ## What an answered request does -/

namespace MailWorld

variable {w : MailWorld} {p : ℕ} {r : MailWorld × MailResponse}

theorem handleSendMail_cases {ready : Bool} {receiver : Option ℕ} {money cod t : ℕ} {items : List ℕ}
    {refusal : Option MailError}
    (hr : w.handleSendMail p ready receiver money cod items refusal t = r) :
    (r.1 = w ∧ r.2 ≠ .ok) ∨
    ∃ q, receiver = some q ∧ q ∈ w.characters ∧ p ≠ q ∧
      toU64 (postage items.length + money) ≤ w.money p ∧ (∀ item ∈ items, item ∈ w.inventory p) ∧
      r = (w.sendChecked p q money cod items t, .ok) := by
  unfold handleSendMail at hr
  split at hr
  · subst hr
    simp
  split at hr
  · subst hr
    simp
  split at hr
  · subst hr
    simp
  rename_i q hq
  obtain ⟨hq, hmem⟩ := Option.filter_eq_some_iff.1 hq
  split at hr
  · subst hr
    simp
  split at hr
  · subst hr
    simp
  split at hr
  · subst hr
    simp
  split at hr
  · subst hr
    simp
  rename_i hne hmoney hitems _
  refine .inr ⟨q, hq, by simpa using hmem, hne, ?_, not_not.1 hitems, hr.symm⟩
  simpa [hasEnoughMoney] using hmoney

theorem handleMailTakeMoney_cases {id money now : ℕ} (hr : w.handleMailTakeMoney p id money now = r) :
    (r.1 = w ∧ r.2 ≠ .ok) ∨
    ∃ m, w.getMail p id = some m ∧ m.state ≠ .deleted ∧
      (modifyMoney (w.money p) (toI64 m.money)).2 = true ∧
      r = (((w.modify p (toI64 m.money)).setMail
        { m with money := 0, state := .changed }).saveMail p, .ok) := by
  unfold handleMailTakeMoney at hr
  split at hr
  · subst hr
    simp
  · rename_i m hm
    split_ifs at hr with h1 h2
    · subst hr
      simp
    · exact .inr ⟨m, hm, fun h => h1 (.inl h), h2, hr.symm⟩
    · subst hr
      simp

/-- The world after the item has been taken out of `m`, with its COD paid. -/
def takeItemFrom (w : MailWorld) (player item : ℕ) (m : Mail) (now : ℕ) : MailWorld :=
  (((w.payCod player m now).setMail { m with
    items := m.items.erase item, cod := 0, state := .changed }).removeMItem player
      item).moveItemToInventory player item

theorem handleMailTakeItem_cases {id item now : ℕ} {canStore : Bool}
    (hr : w.handleMailTakeItem p id item canStore now = r) :
    (r.1 = w ∧ r.2 ≠ .ok) ∨
    ∃ m, w.getMail p id = some m ∧ m.state ≠ .deleted ∧ m.cod ≤ w.money p ∧
      item ∈ w.mItems p ∧ r = ((w.takeItemFrom p item m now).saveMail p, .ok) := by
  unfold handleMailTakeItem at hr
  split at hr
  · subst hr
    simp
  · rename_i m hm
    split_ifs at hr with h1 h2 h3
    · subst hr
      simp
    · refine .inr ⟨m, hm, fun h => h1 (.inl h), ?_, h3.1, hr.symm⟩
      simpa [hasEnoughMoney] using h2
    · subst hr
      simp
    · subst hr
      simp

/-- The draft of a returned mail. -/
def returnDraft (w : MailWorld) (player : ℕ) (m : Mail) : MailDraft :=
  ⟨(m.items.filter (· ∈ w.mItems player)).dedup, m.money, 0⟩

/-- Take all items of a mail out of the session's map. -/
def removeMItems (w : MailWorld) (player : ℕ) (items : List ℕ) : MailWorld :=
  items.foldl (fun w item => w.removeMItem player item) w

theorem handleMailReturnToSender_cases {id now t : ℕ}
    (hr : w.handleMailReturnToSender p id now t = r) :
    (r.1 = w ∧ r.2 ≠ .ok) ∨
    ∃ m, w.getMail p id = some m ∧ m.state ≠ .deleted ∧ r.2 = .ok ∧
      ((m.messageType = .normal ∧ m.sender ≠ 0 ∧ m.sender ∈ w.characters ∧
          r.1 = ((w.removeMail id).removeMItems p m.items).sendMailTo (w.returnDraft p m) .normal
            m.receiver m.sender t) ∨
        (m.messageType = .normal ∧ m.sender ∉ w.characters ∧
          r.1 = (w.removeMail id).removeMItems p m.items) ∨
        ((m.messageType ≠ .normal ∨ m.sender = 0) ∧ r.1 = w.removeMail id)) := by
  unfold handleMailReturnToSender at hr
  split at hr
  · subst hr
    simp
  · rename_i m hm
    split_ifs at hr with h1 h2 h3
    · subst hr
      simp
    · subst hr
      exact .inr ⟨m, hm, fun h => h1 (.inl h), rfl, .inl ⟨h2.1, h2.2, h3, rfl⟩⟩
    · subst hr
      exact .inr ⟨m, hm, fun h => h1 (.inl h), rfl, .inr (.inl ⟨h2.1, h3, rfl⟩)⟩
    · subst hr
      exact .inr ⟨m, hm, fun h => h1 (.inl h), rfl, .inr (.inr ⟨by tauto, rfl⟩)⟩

end MailWorld

end MistyWorld
