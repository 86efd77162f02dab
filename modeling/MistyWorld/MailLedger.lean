import MistyWorld.Mail

/-!
# Mail conserves gold

The gold of the mail system is the gold of the characters and the money of the undeleted
mails (`ledger`). A sent mail costs its postage, a deleted one takes its money with it, and
nothing else may change the sum (`mailChange`).

The amounts pass through words of three widths. A mail to a receiver whose mails are not
loaded keeps the low 32 bits of the money the sender paid (`sendMail_offline_truncated`),
the money the sender must have is a 64-bit sum that can wrap around, and the debit of a COD
is a signed 32-bit word. `Exact` says that none of this happens at a request, and a run of
exact requests is balanced at every step (`mail_run_balanced`).
-/

open Keyed List Word Machine

namespace MistyWorld

/-! ## The ledger -/

/-- The money of a mail that is not deleted. -/
def Mail.liveMoney (m : Mail) : ℕ :=
  if m.state = .deleted then 0 else m.money

variable {id t money : ℕ} {items : List ℕ}

namespace MailWorld

/-- The gold of the characters and the money of the undeleted mails. -/
def ledger (w : MailWorld) : ℕ :=
  ∑ p ∈ w.characters, w.money p + (w.mails.map Mail.liveMoney).sum

/-- What the server guarantees of a mail : an id it has given out, a receiver that exists,
amounts within their limits, and a sender that exists if a player sent it. -/
structure MailOk (w : MailWorld) (m : Mail) : Prop where
  id_lt : m.messageID < w.nextMailId
  receiver : m.receiver ∈ w.characters
  money : m.money ≤ maxMoneyAmount
  cod : m.cod < 2 ^ 32
  sender : m.messageType = .normal → m.sender ∈ w.characters
  normal : m.cod ≠ 0 → m.messageType = .normal

/-- The mails are in order, with distinct ids, and gold is within its limit. -/
structure WF (w : MailWorld) : Prop where
  zero : 0 ∉ w.characters
  nodup : (w.mails.map Mail.messageID).Nodup
  mails : ∀ m ∈ w.mails, w.MailOk m
  money : ∀ p, w.money p ≤ maxMoneyAmount

variable {w : MailWorld} {p n : ℕ} {m : Mail}

theorem mem_of_getMail (hm : w.getMail p id = some m) :
    m ∈ w.mails ∧ m.messageID = id ∧ m.receiver = p ∧ w.loaded p = true := by
  unfold getMail at hm
  split_ifs at hm with hl
  obtain ⟨hmem, hid⟩ := mem_of_find hm
  obtain ⟨hmem, hr⟩ := mem_filter.1 hmem
  exact ⟨hmem, hid, by simpa using hr, hl⟩

theorem find_of_getMail (hw : w.WF) (hm : w.getMail p id = some m) :
    find Mail.messageID w.mails m.messageID = some m :=
  find_of_mem hw.nodup (mem_of_getMail hm).1

theorem ledger_modify_debit (hp : p ∈ w.characters) (hmax : w.money p ≤ maxMoneyAmount)
    (hn : n ≤ w.money p) : (w.modify p (-(n : ℤ))).ledger + n = w.ledger := by
  unfold maxMoneyAmount at hmax
  have hsum := Finset.sum_update_add hp (fun _ n => n) w.money (w.money p - n)
  simp only [ledger, modify, modifyMoney_debit (by omega : w.money p < 2 ^ 63) hn]
  omega

theorem ledger_modify_credit (hp : p ∈ w.characters) (hmax : w.money p ≤ maxMoneyAmount)
    (hn : n ≤ maxMoneyAmount) (hok : (modifyMoney (w.money p) n).2 = true) :
    (w.modify p n).ledger = w.ledger + n := by
  have hsum := Finset.sum_update_add hp (fun _ n => n) w.money (w.money p + n)
  rcases modifyMoney_credit hmax hn with ⟨heq, -⟩ | heq
  · simp only [ledger, modify, heq]
    omega
  · rw [heq] at hok
    exact absurd hok (by simp)

theorem ledger_sendMailTo (draft : MailDraft) (type : MailMessageType) (sender receiver t : ℕ) :
    (w.sendMailTo draft type sender receiver t).ledger =
      w.ledger + w.carried receiver draft.money := by
  simp only [ledger, sendMailTo, map_cons, sum_cons, Mail.liveMoney]
  simp only [reduceCtorEq, if_false]
  omega

theorem ledger_setMail (m' : Mail) (hw : (w.mails.map Mail.messageID).Nodup)
    (hm : find Mail.messageID w.mails m'.messageID = some m) :
    (w.setMail m').ledger + m.liveMoney = w.ledger + m'.liveMoney := by
  have hsum := sum_replace Mail.liveMoney hw hm
  simp only [ledger, setMail]
  omega

theorem ledger_removeMail (id : ℕ) (hw : (w.mails.map Mail.messageID).Nodup)
    (hm : find Mail.messageID w.mails id = some m) :
    (w.removeMail id).ledger + m.liveMoney = w.ledger := by
  have hsum := sum_remove Mail.liveMoney hw hm
  simp only [ledger, removeMail]
  omega

/-- Saving drops deleted mails only. -/
theorem ledger_saveMail : (w.saveMail p).ledger = w.ledger := by
  have hsum : ∀ l : List Mail,
      (((l.filter fun m => ¬(m.receiver = p ∧ m.state = .deleted)).map fun m =>
        if m.receiver = p ∧ m.state = .changed then { m with state := .unchanged } else m).map
          Mail.liveMoney).sum = (l.map Mail.liveMoney).sum := by
    intro l
    induction l with
    | nil => rfl
    | cons m l ih =>
      by_cases hd : m.receiver = p ∧ m.state = .deleted
      · rw [filter_cons_of_neg (by simpa using hd), ih, map_cons, sum_cons,
          Mail.liveMoney, if_pos hd.2, zero_add]
      · rw [filter_cons_of_pos (by simp only [decide_eq_true_eq]; exact hd), map_cons, map_cons,
          sum_cons, ih, map_cons, sum_cons]
        congr 1
        unfold Mail.liveMoney
        split_ifs <;> simp_all
  simp only [ledger, saveMail, hsum]

/-! ## What each primitive keeps -/

section

variable (hw : w.WF)
include hw

theorem WF.of_money {w' : MailWorld} (hc : w'.characters = w.characters)
    (hn : w'.nextMailId = w.nextMailId) (hm : w'.mails = w.mails)
    (hmoney : ∀ q, w'.money q ≤ maxMoneyAmount) : w'.WF := by
  refine ⟨hc ▸ hw.zero, hm ▸ hw.nodup, fun m hmem => ?_, hmoney⟩
  rw [hm] at hmem
  obtain ⟨h1, h2, h3, h4, h5, h6⟩ := hw.mails m hmem
  exact ⟨hn ▸ h1, hc ▸ h2, h3, h4, hc ▸ h5, h6⟩

theorem WF.of_mails {w' : MailWorld} (hc : w'.characters = w.characters)
    (hn : w'.nextMailId = w.nextMailId) (hmoney : w'.money = w.money)
    (hnodup : (w'.mails.map Mail.messageID).Nodup) (hm : ∀ m ∈ w'.mails, w.MailOk m) : w'.WF := by
  refine ⟨hc ▸ hw.zero, hnodup, fun m hmem => ?_, hmoney ▸ hw.money⟩
  obtain ⟨h1, h2, h3, h4, h5, h6⟩ := hm m hmem
  exact ⟨hn ▸ h1, hc ▸ h2, h3, h4, hc ▸ h5, h6⟩

theorem WF.modify {z : ℤ} (hz : (modifyMoney (w.money p) z).1 ≤ maxMoneyAmount) :
    (w.modify p z).WF := by
  refine hw.of_money rfl rfl rfl fun q => ?_
  simp only [MailWorld.modify]
  by_cases hq : q = p
  · subst hq
    rwa [Function.update_self]
  · rw [Function.update_of_ne hq]
    exact hw.money q

theorem WF.modify_debit (hn : n ≤ w.money p) : (w.modify p (-(n : ℤ))).WF := by
  refine hw.modify ?_
  have hmax := hw.money p
  rw [modifyMoney_debit (by unfold maxMoneyAmount at hmax; omega) hn]
  exact (Nat.sub_le _ _).trans hmax

theorem WF.modify_credit (hn : n ≤ maxMoneyAmount) : (w.modify p n).WF := by
  refine hw.modify ?_
  rcases modifyMoney_credit (hw.money p) hn with ⟨heq, hle⟩ | heq
  · rw [heq]
    exact hle
  · rw [heq]
    exact hw.money p

theorem WF.moveItemsFromInventory (items : List ℕ) : (w.moveItemsFromInventory p items).WF :=
  hw.of_money rfl rfl rfl hw.money

theorem WF.moveItemToInventory (item : ℕ) : (w.moveItemToInventory p item).WF :=
  hw.of_money rfl rfl rfl hw.money

theorem WF.removeMItem (item : ℕ) : (w.removeMItem p item).WF :=
  hw.of_money rfl rfl rfl hw.money

theorem WF.sendMailTo {draft : MailDraft} {type : MailMessageType} {sender receiver : ℕ}
    (hr : receiver ∈ w.characters) (hmoney : draft.money ≤ maxMoneyAmount)
    (hcod : draft.cod < 2 ^ 32) (hs : sender ∈ w.characters) (htype : type = .normal) :
    (w.sendMailTo draft type sender receiver t).WF := by
  have hlow : toU32 draft.money ≤ draft.money := by
    unfold toU32
    omega
  refine ⟨hw.zero, ?_, fun m hm => ?_, hw.money⟩
  · simp only [MailWorld.sendMailTo, map_cons, nodup_cons]
    refine ⟨fun hmem => ?_, hw.nodup⟩
    obtain ⟨m, hm, hid⟩ := mem_map.1 hmem
    have := (hw.mails m hm).id_lt
    omega
  · rcases mem_cons.1 hm with rfl | hm
    · refine ⟨Nat.lt_succ_self _, hr, ?_, ?_, fun _ => hs, fun _ => htype⟩
      · dsimp only [carried]
        split_ifs
        · exact hmoney
        · exact hlow.trans hmoney
      · dsimp only [carried]
        split_ifs
        · exact hcod
        · exact toU32_lt _
    · obtain ⟨h1, h2, h3, h4, h5, h6⟩ := hw.mails m hm
      exact ⟨h1.trans (Nat.lt_succ_self _), h2, h3, h4, h5, h6⟩

theorem WF.setMail (hm : w.MailOk m) : (w.setMail m).WF := by
  refine hw.of_mails rfl rfl rfl ?_ fun m' hm' => ?_
  · simpa only [MailWorld.setMail, map_key_replace] using hw.nodup
  · rcases mem_replace hm' with rfl | hold
    · exact hm
    · exact hw.mails m' hold

theorem WF.removeMail (id : ℕ) : (w.removeMail id).WF :=
  hw.of_mails rfl rfl rfl (nodup_remove hw.nodup id) fun _ hm =>
    hw.mails _ (mem_remove.1 hm).1

theorem WF.saveMail (p : ℕ) : (w.saveMail p).WF := by
  refine hw.of_mails rfl rfl rfl ?_ fun m hm => ?_
  · simp only [MailWorld.saveMail, map_map]
    have hkey : (Mail.messageID ∘ fun m : Mail =>
        if m.receiver = p ∧ m.state = .changed then { m with state := .unchanged } else m) =
        Mail.messageID := by
      funext m
      simp only [Function.comp]
      split_ifs <;> rfl
    rw [hkey]
    exact hw.nodup.sublist (filter_sublist.map _)
  · obtain ⟨m', hm', rfl⟩ := mem_map.1 hm
    obtain ⟨h1, h2, h3, h4, h5, h6⟩ := hw.mails m' (mem_of_mem_filter hm')
    split_ifs
    · exact ⟨h1, h2, h3, h4, h5, h6⟩
    · exact ⟨h1, h2, h3, h4, h5, h6⟩

theorem WF.logout (p : ℕ) : (w.logout p).WF := by
  unfold MailWorld.logout
  split_ifs with hl
  · refine (hw.saveMail p).of_mails rfl rfl rfl ?_ fun m hm => ?_
    · have hkey : (Mail.messageID ∘ fun m : Mail =>
          if m.receiver = p then { m with money := toU32 m.money, cod := toU32 m.cod } else m) =
          Mail.messageID := by
        funext m
        simp only [Function.comp]
        split_ifs <;> rfl
      simp only [map_map, hkey]
      exact (hw.saveMail p).nodup
    · obtain ⟨m', hm', rfl⟩ := mem_map.1 hm
      obtain ⟨h1, h2, h3, h4, h5, h6⟩ := (hw.saveMail p).mails m' hm'
      have hlow : toU32 m'.money ≤ m'.money := by
        unfold toU32
        omega
      split_ifs
      · refine ⟨h1, h2, hlow.trans h3, toU32_lt m'.cod, h5, fun h0 => h6 fun hz => h0 ?_⟩
        simp [hz, toU32]
      · exact ⟨h1, h2, h3, h4, h5, h6⟩
  · exact hw

theorem WF.loadMail (p : ℕ) : (w.loadMail p).WF := by
  unfold MailWorld.loadMail
  split_ifs
  · exact hw
  · exact hw.of_money rfl rfl rfl hw.money

end

/-! ## Each request -/

theorem toI64_of_le_max (hn : n ≤ maxMoneyAmount) : toI64 n = n := by
  unfold maxMoneyAmount at hn
  exact toI64_of_range (by omega) (by omega)

theorem money_modify_debit (hw : w.WF) (hn : n ≤ w.money p) :
    (w.modify p (-(n : ℤ))).money p = w.money p - n := by
  have hmax := hw.money p
  unfold maxMoneyAmount at hmax
  simp [modify, modifyMoney_debit (by omega : w.money p < 2 ^ 63) hn]

theorem carried_eq {q : ℕ} (h32 : n < 2 ^ 32 ∨ w.loaded q = true) : w.carried q n = n := by
  unfold carried
  split_ifs with hl
  · rfl
  · exact toU32_of_lt (h32.resolve_right hl)

theorem WF.sendChecked {q cod : ℕ} (hw : w.WF) (hp : p ∈ w.characters) (hq : q ∈ w.characters)
    (hreq : toU64 (postage items.length + money) ≤ w.money p)
    (h64 : postage items.length + money < 2 ^ 64) : (w.sendChecked p q money cod items t).WF := by
  rw [← Nat.cast_add, toU64_of_lt h64] at hreq
  have hmax := hw.money p
  have hpaid := hw.modify_debit hreq
  unfold MailWorld.sendChecked
  simp only [← Nat.cast_add, toU64_of_lt h64, toI64_of_le_max (hreq.trans hmax)]
  exact (hpaid.moveItemsFromInventory items).sendMailTo hq (by omega : money ≤ maxMoneyAmount)
    (toU32_lt cod) hp rfl

/-- A mail that is sent costs its money, which it carries, and its postage. -/
theorem sendChecked_spec {q : ℕ} (cod t : ℕ) (hw : w.WF) (hp : p ∈ w.characters)
    (hreq : toU64 (postage items.length + money) ≤ w.money p)
    (h64 : postage items.length + money < 2 ^ 64) (h32 : money < 2 ^ 32 ∨ w.loaded q = true) :
    (w.sendChecked p q money cod items t).ledger + postage items.length = w.ledger ∧
      (w.sendChecked p q money cod items t).money p + (postage items.length + money) = w.money p ∧
      ∃ m, (w.sendChecked p q money cod items t).mails = m :: w.mails ∧ m.money = money := by
  rw [← Nat.cast_add, toU64_of_lt h64] at hreq
  have hmax := hw.money p
  have hmoney := carried_eq h32
  unfold sendChecked
  simp only [← Nat.cast_add, toU64_of_lt h64, toI64_of_le_max (hreq.trans hmax)]
  refine ⟨?_, ?_, _, rfl, hmoney⟩
  · have hdebit := ledger_modify_debit hp hmax hreq
    rw [ledger_sendMailTo]
    exact (by omega : (w.modify p (-((postage items.length + money : ℕ) : ℤ))).ledger +
      w.carried q money + postage items.length = w.ledger)
  · have hdebit := money_modify_debit hw hreq
    simp only [sendMailTo, moveItemsFromInventory, hdebit]
    omega

theorem liveMoney_of_ne (hm : m.state ≠ .deleted) : m.liveMoney = m.money :=
  if_neg hm

theorem MailOk.congr {m' : Mail} (h : w.MailOk m) (hid : m'.messageID = m.messageID)
    (hr : m'.receiver = m.receiver) (hmoney : m'.money ≤ m.money) (hcod : m'.cod ≤ m.cod)
    (hs : m'.sender = m.sender) (ht : m'.messageType = m.messageType) : w.MailOk m' := by
  obtain ⟨h1, h2, h3, h4, h5, h6⟩ := h
  refine ⟨hid ▸ h1, hr ▸ h2, hmoney.trans h3, hcod.trans_lt h4, ?_, fun h0 => ?_⟩
  · rw [hs, ht]
    exact h5
  · rw [ht]
    exact h6 (by omega)

/-- Taking the money moves it from the mail to the player. -/
theorem takeMoney_spec (hw : w.WF) (hp : p ∈ w.characters) (hm : w.getMail p id = some m)
    (hlive : m.state ≠ .deleted) (hok : (modifyMoney (w.money p) (toI64 m.money)).2 = true) :
    let w' := ((w.modify p (toI64 m.money)).setMail
      { m with money := 0, state := .changed }).saveMail p
    w'.WF ∧ w'.ledger = w.ledger := by
  have hmem := (mem_of_getMail hm).1
  have hle := (hw.mails m hmem).money
  rw [toI64_of_le_max hle] at hok ⊢
  have hpaid := hw.modify_credit (p := p) hle
  have hmail : (w.modify p m.money).MailOk { m with money := 0, state := .changed } :=
    (hpaid.mails m hmem).congr rfl rfl (Nat.zero_le _) le_rfl rfl rfl
  refine ⟨(hpaid.setMail hmail).saveMail p, ?_⟩
  have hset := ledger_setMail (w := w.modify p m.money)
    { m with money := 0, state := .changed } hpaid.nodup
    (m := m) (find_of_getMail hw hm : find Mail.messageID w.mails m.messageID = some m)
  have hcredit := ledger_modify_credit hp (hw.money p) hle hok
  have hzero : ({ m with money := 0, state := .changed } : Mail).liveMoney = 0 := by
    simp [Mail.liveMoney]
  rw [liveMoney_of_ne hlive, hzero] at hset
  rw [ledger_saveMail]
  omega

/-- A COD that fits a signed word is taken from the player and sent on. -/
theorem payCod_spec (now : ℕ) (hw : w.WF) (hp : p ∈ w.characters) (hm : m ∈ w.mails)
    (hcod : m.cod ≤ w.money p) (h31 : m.cod < 2 ^ 31) :
    (w.payCod p m now).WF ∧ (w.payCod p m now).ledger = w.ledger ∧
      (w.payCod p m now).money p + m.cod = w.money p ∧
      (m.cod = 0 ∧ (w.payCod p m now).mails = w.mails ∨
        ∃ pay, (w.payCod p m now).mails = pay :: w.mails ∧ pay.messageID = w.nextMailId ∧
          pay.receiver = m.sender ∧ pay.money = m.cod ∧ pay.items = [] ∧
          pay.state = .unchanged) := by
  obtain ⟨-, hrcv, -, -, hsender, hnormal⟩ := hw.mails m hm
  unfold payCod
  by_cases h0 : 0 < m.cod
  · have hs := hsender (hnormal h0.ne')
    have hi32 : toI32 m.cod = m.cod := toI32_of_range (by omega) (by omega)
    have hmoney : w.carried m.sender m.cod = m.cod := carried_eq (.inl (by omega))
    rw [if_pos h0, if_pos hs, hi32]
    have hsent : (w.sendMailTo ⟨[], m.cod, 0⟩ .normal m.receiver m.sender now).WF :=
      hw.sendMailTo hs (by unfold maxMoneyAmount; dsimp only; omega) (by simp) hrcv rfl
    refine ⟨hsent.modify_debit hcod, ?_, ?_, .inr ⟨_, rfl, rfl, rfl, hmoney, rfl, rfl⟩⟩
    · have hdebit := ledger_modify_debit
        (w := w.sendMailTo ⟨[], m.cod, 0⟩ .normal m.receiver m.sender now) hp (hw.money p) hcod
      rw [ledger_sendMailTo, hmoney] at hdebit
      dsimp only
      omega
    · rw [money_modify_debit hsent hcod]
      have : (w.sendMailTo ⟨[], m.cod, 0⟩ .normal m.receiver m.sender now).money p = w.money p := rfl
      omega
  · rw [if_neg h0]
    exact ⟨hw, rfl, by omega, .inl ⟨by omega, rfl⟩⟩

theorem takeItemFrom_spec {item now : ℕ} (hw : w.WF) (hp : p ∈ w.characters)
    (hm : w.getMail p id = some m) (hlive : m.state ≠ .deleted) (hcod : m.cod ≤ w.money p)
    (h31 : m.cod < 2 ^ 31) :
    ((w.takeItemFrom p item m now).saveMail p).WF ∧
      ((w.takeItemFrom p item m now).saveMail p).ledger = w.ledger := by
  have hmem := (mem_of_getMail hm).1
  obtain ⟨hwf, hled, -, hmails⟩ := payCod_spec now hw hp hmem hcod h31
  have hfind : find Mail.messageID (w.payCod p m now).mails m.messageID = some m := by
    refine find_of_mem hwf.nodup ?_
    rcases hmails with ⟨-, heq⟩ | ⟨pay, heq, -⟩ <;> rw [heq]
    · exact hmem
    · exact mem_cons_of_mem _ hmem
  have hok : (w.payCod p m now).MailOk
      { m with items := m.items.erase item, cod := 0, state := .changed } :=
    (hwf.mails m (mem_of_find hfind).1).congr rfl rfl le_rfl (Nat.zero_le _) rfl rfl
  have hset := hwf.setMail hok
  refine ⟨((hset.removeMItem item).moveItemToInventory item).saveMail p, ?_⟩
  have hledger := ledger_setMail
    { m with items := m.items.erase item, cod := 0, state := .changed } hwf.nodup hfind
  rw [liveMoney_of_ne hlive, liveMoney_of_ne (by simp)] at hledger
  dsimp only at hledger
  rw [ledger_saveMail]
  exact (by omega : ((w.payCod p m now).setMail
    { m with items := m.items.erase item, cod := 0, state := .changed }).ledger = w.ledger)

/-- The mails a save keeps, with their amounts. -/
theorem mem_saveMail {m : Mail} (hm : m ∈ w.mails) (hlive : m.state = .unchanged) :
    m ∈ (w.saveMail p).mails := by
  refine mem_map.2 ⟨m, mem_filter.2 ⟨hm, ?_⟩, ?_⟩
  · simp [hlive]
  · simp [hlive]

/-- A COD is debited from the player and reaches the sender in a new mail. -/
theorem takeItemFrom_pays (item now : ℕ) (hw : w.WF) (hp : p ∈ w.characters)
    (hm : w.getMail p id = some m) (hcod : m.cod ≤ w.money p) (h31 : m.cod < 2 ^ 31) :
    ((w.takeItemFrom p item m now).saveMail p).money p + m.cod = w.money p ∧
      (m.cod ≠ 0 → ∃ pay ∈ ((w.takeItemFrom p item m now).saveMail p).mails, pay ∉ w.mails ∧
        pay.receiver = m.sender ∧ pay.money = m.cod) := by
  have hmem := (mem_of_getMail hm).1
  obtain ⟨-, -, hpaid, hmails⟩ := payCod_spec now hw hp hmem hcod h31
  refine ⟨hpaid, fun h0 => ?_⟩
  obtain ⟨pay, heq, hid, hrcv, hmoney, -, hstate⟩ := hmails.resolve_left fun h => h0 h.1
  have hold : ∀ m ∈ w.mails, m.messageID ≠ pay.messageID := fun m hm =>
    (hid ▸ (hw.mails m hm).id_lt).ne
  refine ⟨pay, mem_saveMail (mem_replace_of_ne ?_ ?_) hstate,
    fun hmem' => hold pay hmem' rfl, hrcv, hmoney⟩
  · exact heq ▸ mem_cons_self
  · exact (hold m hmem).symm

theorem removeMItems_frame (items : List ℕ) : ∀ w : MailWorld,
    (w.removeMItems p items).characters = w.characters ∧
      (w.removeMItems p items).money = w.money ∧ (w.removeMItems p items).mails = w.mails ∧
      (w.removeMItems p items).loaded = w.loaded ∧
      (w.removeMItems p items).inventory = w.inventory ∧
      (w.removeMItems p items).nextMailId = w.nextMailId := by
  induction items with
  | nil => exact fun _ => ⟨rfl, rfl, rfl, rfl, rfl, rfl⟩
  | cons item items ih => exact fun w => ih (w.removeMItem p item)

theorem WF.removeMItems (hw : w.WF) (items : List ℕ) : (w.removeMItems p items).WF := by
  obtain ⟨hc, hmoney, hmails, -, -, hn⟩ := removeMItems_frame (p := p) items w
  exact hw.of_money hc hn hmails (hmoney ▸ hw.money)

theorem WF.returnToSender (hw : w.WF) (hm : w.getMail p id = some m) (hs : m.sender ∈ w.characters) :
    (((w.removeMail id).removeMItems p m.items).sendMailTo (w.returnDraft p m) .normal
      m.receiver m.sender t).WF := by
  have hok := hw.mails m (mem_of_getMail hm).1
  have hc := (removeMItems_frame (p := p) m.items (w.removeMail id)).1
  exact ((hw.removeMail id).removeMItems m.items).sendMailTo (hc ▸ hs) hok.money
    (by simp [returnDraft]) (hc ▸ hok.receiver) rfl

/-- A returned mail carries its money back. -/
theorem ledger_returnToSender (hw : w.WF) (hm : w.getMail p id = some m)
    (hlive : m.state ≠ .deleted) (h32 : m.money < 2 ^ 32 ∨ w.loaded m.sender = true) :
    (((w.removeMail id).removeMItems p m.items).sendMailTo (w.returnDraft p m) .normal
      m.receiver m.sender t).ledger = w.ledger := by
  have hid := (mem_of_getMail hm).2.1
  obtain ⟨hc, hmoney, hmails, hl, -, -⟩ := removeMItems_frame (p := p) m.items (w.removeMail id)
  have hledger : ((w.removeMail id).removeMItems p m.items).ledger = (w.removeMail id).ledger := by
    simp only [ledger, hc, hmoney, hmails]
  have hcarried : ((w.removeMail id).removeMItems p m.items).carried m.sender m.money = m.money :=
    carried_eq (by rw [hl]; exact h32)
  have hback := ledger_removeMail id hw.nodup (hid ▸ find_of_getMail hw hm)
  rw [liveMoney_of_ne hlive] at hback
  rw [ledger_sendMailTo]
  simp only [returnDraft, hcarried]
  omega

/-- Ending a session leaves the ledger alone if the money of the mails fits the rows. -/
theorem ledger_logout (h : ∀ m ∈ w.mails, m.receiver = p → m.state ≠ .deleted → m.money < 2 ^ 32) :
    (w.logout p).ledger = w.ledger := by
  unfold logout
  split_ifs with hl
  · rw [← ledger_saveMail (w := w) (p := p)]
    simp only [ledger]
    congr 2
    simp only [map_map]
    refine map_congr_left fun m hm => ?_
    obtain ⟨m', hm', rfl⟩ := mem_map.1 hm
    simp only [Function.comp, Mail.liveMoney]
    split_ifs <;> simp_all [toU32_of_lt]
  · rfl

end MailWorld

/-! ## Runs -/

open MailWorld

/-- What a request does to the ledger : a sent mail costs its postage, and a deleted one
takes its money with it. -/
def mailChange (w : MailWorld) (r : MailRequest) : ℤ :=
  if r.player ∈ w.characters ∧ (mailServe w r).2 = .ok then
    match r with
    | .sendMail _ _ _ _ _ items _ _ => -(postage items.length : ℤ)
    | .delete player mailId => -(((w.getMail player mailId).map Mail.liveMoney).getD 0 : ℤ)
    | _ => 0
  else 0

/-- No amount of the request is cut by the words it passes through. A mail that the sender
can pay carries less than `2 ^ 32` or goes to a receiver with loaded mails, and its cost
does not wrap around; a COD fits a signed word; what is returned was sent by a player or
carries nothing, and reaches him whole; a session ends with rows that hold its mails. -/
def Exact (w : MailWorld) : MailRequest → Prop
  | .sendMail player _ receiver money _ items _ _ =>
    hasEnoughMoney (w.money player) (toU64 (postage items.length + money)) →
      postage items.length + money < 2 ^ 64 ∧
        (money < 2 ^ 32 ∨ ∀ q, receiver = some q → w.loaded q = true)
  | .takeMoney _ _ _ _ => True
  | .takeItem player mailId item _ _ =>
    ∀ m, w.getMail player mailId = some m → item ∈ w.mItems player → m.cod < 2 ^ 31
  | .returnToSender player mailId _ _ =>
    ∀ m, w.getMail player mailId = some m → m.money = 0 ∨
      m.messageType = .normal ∧ (m.money < 2 ^ 32 ∨ w.loaded m.sender = true)
  | .delete _ _ => True
  | .loadMail _ => True
  | .logout player =>
    ∀ m ∈ w.mails, m.receiver = player → m.state ≠ .deleted → m.money < 2 ^ 32

/-- A request keeps the books : the ledger moves by its change, the sender of a mail pays
what it carries and its postage, and a COD payer what the payment mail carries. -/
structure MailBalanced (w : MailWorld) (r : MailRequest) : Prop where
  balance : ((mailStep w r).ledger : ℤ) = w.ledger + mailChange w r
  debit : ∀ player ready receiver money cod items refusal t,
    r = .sendMail player ready receiver money cod items refusal t → player ∈ w.characters →
    (mailServe w r).2 = .ok →
    (mailStep w r).money player + (postage items.length + money) = w.money player ∧
      ∃ m, (mailStep w r).mails = m :: w.mails ∧ m.money = money
  cod : ∀ player mailId item canStore now m, r = .takeItem player mailId item canStore now →
    player ∈ w.characters → (mailServe w r).2 = .ok → w.getMail player mailId = some m →
    m.cod ≠ 0 → (mailStep w r).money player + m.cod = w.money player ∧
      ∃ pay ∈ (mailStep w r).mails, pay ∉ w.mails ∧ pay.receiver = m.sender ∧ pay.money = m.cod

variable {w : MailWorld} {p : ℕ} {r : MailRequest}

theorem mailStep_eq (hp : r.player ∈ w.characters) : mailStep w r = (mailServe w r).1 :=
  if_pos hp

theorem MailBalanced.of_frame (hbal : (mailStep w r).ledger = w.ledger)
    (hchange : mailChange w r = 0) (hsend : ∀ player ready receiver money cod items refusal t,
      r ≠ .sendMail player ready receiver money cod items refusal t)
    (htake : ∀ player mailId item canStore now, r ≠ .takeItem player mailId item canStore now) :
    MailBalanced w r := by
  refine ⟨by rw [hbal, hchange, add_zero], ?_, ?_⟩
  · intro player ready receiver money cod items refusal t hr
    exact absurd hr (hsend _ _ _ _ _ _ _ _)
  · intro player mailId item canStore now m hr
    exact absurd hr (htake _ _ _ _ _)

/-- A request that is refused changes nothing. -/
theorem MailBalanced.of_refused (heq : mailStep w r = w) (hne : (mailServe w r).2 ≠ .ok) :
    MailBalanced w r := by
  refine ⟨?_, ?_, ?_⟩
  · unfold mailChange
    rw [heq, if_neg (fun h => hne h.2), add_zero]
  · intro _ _ _ _ _ _ _ _ _ _ hok
    exact absurd hok hne
  · intro _ _ _ _ _ _ _ _ hok
    exact absurd hok hne

/-- The part of `Exact` that keeps the amounts within their limits. -/
def Unwrapped (w : MailWorld) : MailRequest → Prop
  | .sendMail player _ _ money _ items _ _ =>
    hasEnoughMoney (w.money player) (toU64 (postage items.length + money)) →
      postage items.length + money < 2 ^ 64
  | .takeItem player mailId item _ _ =>
    ∀ m, w.getMail player mailId = some m → item ∈ w.mItems player → m.cod < 2 ^ 31
  | _ => True

theorem Exact.unwrapped (h : Exact w r) : Unwrapped w r := by
  cases r with
  | sendMail p ready receiver money cod items refusal t => exact fun hm => (h hm).1
  | takeItem p id item canStore now => exact h
  | _ => trivial

section

variable (hw : w.WF)
include hw

theorem mailServe_wf (hp : r.player ∈ w.characters) (hx : Unwrapped w r) :
    (mailServe w r).1.WF := by
  cases r with
  | sendMail p ready receiver money cod items refusal t =>
    rcases handleSendMail_cases
      (rfl : w.handleSendMail p ready receiver money cod items refusal t = _) with
      ⟨heq, -⟩ | ⟨q, -, hq, -, hreq, -, heq⟩
    · rwa [mailServe, heq]
    · have h64 := hx (by simpa [hasEnoughMoney] using hreq)
      rw [mailServe, heq]
      exact hw.sendChecked hp hq hreq h64
  | takeMoney p id money now =>
    rcases handleMailTakeMoney_cases (rfl : w.handleMailTakeMoney p id money now = _)
      with ⟨heq, -⟩ | ⟨m, hm, hlive, hok, heq⟩
    · rwa [mailServe, heq]
    · rw [mailServe, heq]
      exact (takeMoney_spec hw hp hm hlive hok).1
  | takeItem p id item canStore now =>
    rcases handleMailTakeItem_cases
      (rfl : w.handleMailTakeItem p id item canStore now = _) with ⟨heq, -⟩ | ⟨m, hm, hlive, hcod, hitem, heq⟩
    · rwa [mailServe, heq]
    · rw [mailServe, heq]
      exact (takeItemFrom_spec hw hp hm hlive hcod (hx m hm hitem)).1
  | returnToSender p id now t =>
    rcases handleMailReturnToSender_cases (rfl : w.handleMailReturnToSender p id now t = _)
      with ⟨heq, -⟩ | ⟨m, hm, -, -, ⟨-, -, hs, heq⟩ | ⟨-, -, heq⟩ | ⟨-, heq⟩⟩
    · rwa [mailServe, heq]
    · rw [mailServe, heq]
      exact hw.returnToSender hm hs
    · rw [mailServe, heq]
      exact (hw.removeMail id).removeMItems m.items
    · rw [mailServe, heq]
      exact hw.removeMail id
  | delete p id =>
    simp only [mailServe, handleMailDelete]
    split
    · exact hw
    · rename_i m hm
      split_ifs
      · exact hw
      · exact hw.setMail ((hw.mails m (mem_of_getMail hm).1).congr rfl rfl le_rfl le_rfl rfl rfl)
  | loadMail p => exact hw.loadMail p
  | logout p => exact hw.logout p

/-- A request whose amounts do not wrap around keeps the mails in order. -/
theorem mailStep_wf (hx : Unwrapped w r) : (mailStep w r).WF := by
  unfold mailStep
  split_ifs with hp
  · exact mailServe_wf hw hp hx
  · exact hw

section

variable (hp : p ∈ w.characters)
include hp

theorem sendMail_balanced {ready : Bool} {receiver : Option ℕ} {cod : ℕ}
    {refusal : Option MailError}
    (hx : Exact w (.sendMail p ready receiver money cod items refusal t)) :
    MailBalanced w (.sendMail p ready receiver money cod items refusal t) := by
  have hstep := mailStep_eq (r := .sendMail p ready receiver money cod items refusal t) hp
  rcases handleSendMail_cases
    (rfl : w.handleSendMail p ready receiver money cod items refusal t = _) with
    ⟨heq, hne⟩ | ⟨q, rfl, hq, -, hreq, -, heq⟩
  · exact MailBalanced.of_refused (hstep.trans heq) hne
  · obtain ⟨h64, h32⟩ := hx (by simpa [hasEnoughMoney] using hreq)
    obtain ⟨hled, hdebit, hmail⟩ := sendChecked_spec cod t hw hp hreq h64
      (h32.imp_right fun h => h q rfl)
    have hserve : mailServe w (.sendMail p ready (some q) money cod items refusal t) =
        (w.sendChecked p q money cod items t, .ok) := heq
    have hchange : mailChange w (.sendMail p ready (some q) money cod items refusal t) =
        -(postage items.length : ℤ) := by
      rw [mailChange, if_pos ⟨hp, by rw [hserve]⟩]
    rw [hserve] at hstep
    refine ⟨?_, ?_, ?_⟩
    · rw [hstep, hchange]
      dsimp only
      omega
    · rintro _ _ _ _ _ _ _ _ ⟨⟩ _ _
      rw [hstep]
      exact ⟨hdebit, hmail⟩
    · rintro _ _ _ _ _ _ ⟨⟩

theorem takeMoney_balanced {now : ℕ} : MailBalanced w (.takeMoney p id money now) := by
  have hstep := mailStep_eq (r := .takeMoney p id money now) hp
  rcases handleMailTakeMoney_cases (rfl : w.handleMailTakeMoney p id money now = _)
    with ⟨heq, hne⟩ | ⟨m, hm, hlive, hok, heq⟩
  · exact MailBalanced.of_refused (hstep.trans heq) hne
  · have hsame := hstep.trans (congrArg Prod.fst heq)
    refine MailBalanced.of_frame ?_ (by simp [mailChange]) (by simp) (by simp)
    rw [hsame]
    exact (takeMoney_spec hw hp hm hlive hok).2

theorem takeItem_balanced {item now : ℕ} {canStore : Bool}
    (hx : Exact w (.takeItem p id item canStore now)) :
    MailBalanced w (.takeItem p id item canStore now) := by
  have hstep := mailStep_eq (r := .takeItem p id item canStore now) hp
  rcases handleMailTakeItem_cases
    (rfl : w.handleMailTakeItem p id item canStore now = _) with ⟨heq, hne⟩ | ⟨m, hm, hlive, hcod, hitem, heq⟩
  · exact MailBalanced.of_refused (hstep.trans heq) hne
  · have h31 := hx m hm hitem
    have hsame := hstep.trans (congrArg Prod.fst heq)
    refine ⟨?_, ?_, ?_⟩
    · rw [hsame, (takeItemFrom_spec hw hp hm hlive hcod h31).2]
      simp [mailChange]
    · rintro _ _ _ _ _ _ _ _ ⟨⟩
    · rintro _ _ _ _ _ m' ⟨⟩ _ _ hm' h0
      obtain rfl := Option.some.inj (hm.symm.trans hm')
      obtain ⟨hdebit, hpay⟩ := takeItemFrom_pays item now hw hp hm hcod h31
      rw [hsame]
      exact ⟨hdebit, hpay h0⟩

theorem returnToSender_balanced {now : ℕ} (hx : Exact w (.returnToSender p id now t)) :
    MailBalanced w (.returnToSender p id now t) := by
  have hstep := mailStep_eq (r := .returnToSender p id now t) hp
  have hchange : mailChange w (.returnToSender p id now t) = 0 := by
    simp [mailChange]
  rcases handleMailReturnToSender_cases (rfl : w.handleMailReturnToSender p id now t = _) with
    ⟨heq, hne⟩ | ⟨m, hm, hlive, -, ⟨-, -, hs, heq⟩ | ⟨hn, hs, heq⟩ | ⟨hn, heq⟩⟩
  · exact MailBalanced.of_refused (hstep.trans heq) hne
  · have h32 : m.money < 2 ^ 32 ∨ w.loaded m.sender = true := by
      rcases hx m hm with h0 | ⟨-, h⟩
      · exact .inl (by omega)
      · exact h
    refine MailBalanced.of_frame ?_ hchange (by simp) (by simp)
    rw [hstep.trans heq]
    exact ledger_returnToSender hw hm hlive h32
  · exact absurd ((hw.mails m (mem_of_getMail hm).1).sender hn) hs
  · obtain ⟨hmem, hid, -⟩ := mem_of_getMail hm
    have h0 : m.money = 0 := by
      rcases hx m hm with h0 | ⟨hnormal, -⟩
      · exact h0
      · rcases hn with hn | hzero
        · exact absurd hnormal hn
        · exact absurd (hzero ▸ (hw.mails m hmem).sender hnormal) hw.zero
    have hback := ledger_removeMail id hw.nodup (hid ▸ find_of_getMail hw hm)
    rw [liveMoney_of_ne hlive, h0, add_zero] at hback
    refine MailBalanced.of_frame ?_ hchange (by simp) (by simp)
    rw [hstep.trans heq]
    exact hback

theorem delete_balanced : MailBalanced w (.delete p id) := by
  have hstep := mailStep_eq (r := .delete p id) hp
  cases hm : w.getMail p id with
  | none =>
    have hserve : mailServe w (.delete p id) = (w, .ok) := by
      simp [mailServe, handleMailDelete, hm]
    rw [hserve] at hstep
    refine MailBalanced.of_frame (by rw [hstep]) ?_ (by simp) (by simp)
    simp [mailChange, hm]
  | some m =>
    by_cases hcod : m.cod = 0
    · have hserve : mailServe w (.delete p id) = (w.setMail { m with state := .deleted }, .ok) := by
        simp [mailServe, handleMailDelete, hm, hcod]
      have hset := ledger_setMail (m := m) { m with state := .deleted } hw.nodup
        (find_of_getMail hw hm : find Mail.messageID w.mails m.messageID = some m)
      have hzero : ({ m with state := .deleted } : Mail).liveMoney = 0 := by
        simp [Mail.liveMoney]
      have hchange : mailChange w (.delete p id) = -(m.liveMoney : ℤ) := by
        unfold mailChange
        rw [if_pos ⟨hp, by rw [hserve]⟩]
        simp [hm]
      rw [hserve] at hstep
      refine ⟨?_, ?_, ?_⟩
      · rw [hstep, hchange]
        dsimp only
        omega
      · rintro _ _ _ _ _ _ _ _ ⟨⟩
      · rintro _ _ _ _ _ _ ⟨⟩
    · have hserve : mailServe w (.delete p id) = (w, .error .internalError) := by
        simp [mailServe, handleMailDelete, hm, hcod]
      exact MailBalanced.of_refused (by rw [hstep, hserve]) (by simp [hserve])

end

end

/-- An exact request keeps the mails in order and the books balanced. -/
theorem mailStep_balanced (w : MailWorld) (r : MailRequest) (hw : w.WF) (hx : Exact w r) :
    (mailStep w r).WF ∧ MailBalanced w r := by
  refine ⟨mailStep_wf hw hx.unwrapped, ?_⟩
  by_cases hp : r.player ∈ w.characters
  · cases r with
    | sendMail p ready receiver money cod items refusal t => exact sendMail_balanced hw hp hx
    | takeMoney p id money now => exact takeMoney_balanced hw hp
    | takeItem p id item canStore now => exact takeItem_balanced hw hp hx
    | returnToSender p id now t => exact returnToSender_balanced hw hp hx
    | delete p id => exact delete_balanced hw hp
    | loadMail p =>
      refine MailBalanced.of_frame ?_ (by simp [mailChange]) (by simp) (by simp)
      rw [mailStep_eq hp, mailServe, loadMail]
      split_ifs <;> rfl
    | logout p =>
      refine MailBalanced.of_frame ?_ (by simp [mailChange]) (by simp) (by simp)
      rw [mailStep_eq hp]
      exact ledger_logout hx
  · have hsame : mailStep w r = w := if_neg hp
    refine ⟨?_, ?_, ?_⟩
    · unfold mailChange
      rw [hsame, if_neg (fun h => hp h.1), add_zero]
    · rintro _ _ _ _ _ _ _ _ rfl hp'
      exact absurd hp' hp
    · rintro _ _ _ _ _ _ rfl hp'
      exact absurd hp' hp

/-- Two players without mails, the first with an item. -/
def smallPost : MailWorld where
  characters := {1, 2}
  money p := if p = 1 then 5000000000 else 10000
  inventory p := if p = 1 then [50] else []
  loaded p := p = 1
  mItems _ := []
  mails := []
  nextMailId := 1

theorem smallPost_wf : smallPost.WF := by
  refine ⟨by decide, nodup_nil, fun m hm => absurd hm not_mem_nil, fun p => ?_⟩
  simp only [smallPost]
  split_ifs <;> decide

/-- An item sent for a COD of `500` with `1000` inside, and taken out. -/
def smallPostRun : List MailRequest :=
  [.sendMail 1 true (some 2) 1000 500 [50] none 0, .loadMail 2, .takeItem 2 1 50 true 10,
    .takeMoney 2 1 0 10]

theorem smallPostRun_exact : Along mailStep Exact smallPost smallPostRun := by
  refine ⟨?_, trivial, ?_, trivial, trivial⟩
  · intro _
    exact ⟨by decide, .inl (by decide)⟩
  · intro m hm _
    have hcod : ((run mailStep smallPost [.sendMail 1 true (some 2) 1000 500 [50] none 0,
        .loadMail 2]).getMail 2 1).map Mail.cod = some 500 := by
      decide +kernel
    rw [show (run mailStep smallPost [.sendMail 1 true (some 2) 1000 500 [50] none 0,
      .loadMail 2]).getMail 2 1 = some m from hm] at hcod
    rw [Option.some.inj hcod]
    decide

end MistyWorld
