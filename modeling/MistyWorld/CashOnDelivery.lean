import MistyWorld.MailLedger
import Mathlib.Algebra.Order.BigOperators.Group.List

/-!
# Cash on delivery

An item attached to a mail with a COD may enter the receiver's inventory only when the COD
is paid. `HandleMailTakeItem` looks the mail up by its id and the item, by its guid, in a
map of all items attached to the player's mails : it does not ask whether the item is in
the mail. Naming a mail without COD, a player takes the item of another mail and pays
nothing (`takeItem_other_mail`).

`Listed` says that a request names an item of the mail it names. In a run of such requests
every COD is paid when the item is taken (`cod_run_honoured`). What carries the proof is
that an item is in one place : in one mail, once, or in one inventory (`ItemsOk`). It is
stated with `listings`, the number of times an item is listed in the mails.
-/

open Keyed Function List Word Machine

namespace MistyWorld

variable {id now item : ℕ}

namespace MailWorld

/-- How often the mails list an item. -/
def listings (w : MailWorld) (item : ℕ) : ℕ :=
  (w.mails.map fun m => m.items.count item).sum

/-- Every item is listed at most once, and not while somebody holds it; nobody else holds
it then. -/
structure ItemsOk (w : MailWorld) : Prop where
  once : ∀ item, w.listings item ≤ 1
  apart : ∀ p, ∀ item ∈ w.inventory p, w.listings item = 0
  own : ∀ p q item, item ∈ w.inventory p → item ∈ w.inventory q → p = q

variable {w : MailWorld} {p : ℕ} {m : Mail}

/-! ## The number of listings -/

theorem listings_sendMailTo (draft : MailDraft) (type : MailMessageType) (s r t item : ℕ) :
    (w.sendMailTo draft type s r t).listings item = draft.items.count item + w.listings item := by
  simp [listings, sendMailTo]

theorem listings_setMail (m' : Mail) (hw : w.WF)
    (hm : find Mail.messageID w.mails m'.messageID = some m) (item : ℕ) :
    (w.setMail m').listings item + m.items.count item =
      w.listings item + m'.items.count item :=
  sum_replace (fun m => m.items.count item) hw.nodup hm

theorem listings_removeMail (id : ℕ) (hw : w.WF)
    (hm : find Mail.messageID w.mails id = some m) (item : ℕ) :
    (w.removeMail id).listings item + m.items.count item = w.listings item :=
  sum_remove (fun m => m.items.count item) hw.nodup hm

theorem count_le_listings (hm : m ∈ w.mails) (item : ℕ) : m.items.count item ≤ w.listings item :=
  le_sum_of_mem (mem_map_of_mem hm)

/-- Saving and loading list nothing new. -/
theorem listings_saveMail_le (item : ℕ) : (w.saveMail p).listings item ≤ w.listings item := by
  have hsame : (w.saveMail p).listings item =
      ((w.mails.filter fun m => ¬(m.receiver = p ∧ m.state = .deleted)).map
        fun m => m.items.count item).sum := by
    simp only [listings, saveMail, map_map]
    congr 1
    refine map_congr_left fun m _ => ?_
    simp only [Function.comp]
    split_ifs <;> rfl
  rw [hsame]
  exact (filter_sublist.map _).sum_le_sum fun _ _ => Nat.zero_le _

theorem listings_logout_le (item : ℕ) : (w.logout p).listings item ≤ w.listings item := by
  unfold logout
  split_ifs
  · refine le_of_eq_of_le ?_ (listings_saveMail_le (p := p) item)
    simp only [listings, map_map]
    congr 1
    refine map_congr_left fun m _ => ?_
    simp only [Function.comp]
    split_ifs <;> rfl
  · exact le_rfl

/-- Two mails do not list the same item. -/
theorem ItemsOk.eq_of_mem (hi : w.ItemsOk) (hw : w.WF) {m' : Mail} (hm : m ∈ w.mails)
    (hm' : m' ∈ w.mails) (hitem : item ∈ m.items) (hitem' : item ∈ m'.items) : m' = m := by
  by_contra hne
  have hfind := find_of_mem hw.nodup hm
  have hid : m'.messageID ≠ m.messageID := by
    intro h
    have hfind' := find_of_mem hw.nodup hm'
    rw [h, hfind] at hfind'
    exact hne (Option.some.inj hfind').symm
  have hrest := listings_removeMail _ hw hfind item
  have hone := hi.once item
  have hin : m' ∈ (w.removeMail m.messageID).mails := mem_remove.2 ⟨hm', hid⟩
  have h1 := count_le_listings hin item
  have h2 := one_le_count_iff.2 hitem
  have h3 := one_le_count_iff.2 hitem'
  omega

/-! ## Each request -/

/-- Listing less, with the same inventories, keeps the items in place. -/
theorem ItemsOk.of_le {w' : MailWorld} (hi : w.ItemsOk) (hinv : w'.inventory = w.inventory)
    (hle : ∀ item, w'.listings item ≤ w.listings item) : w'.ItemsOk := by
  refine ⟨fun item => (hle item).trans (hi.once item), fun p item hitem => ?_, ?_⟩
  · have := hi.apart p item (hinv ▸ hitem)
    have := hle item
    omega
  · rw [hinv]
    exact hi.own

theorem count_dedup_le (l : List ℕ) (item : ℕ) : l.dedup.count item ≤ 1 :=
  nodup_iff_count_le_one.1 (nodup_dedup l) item

/-- Sent items leave the sender's inventory for the mail. -/
theorem ItemsOk.sendChecked {q money cod t : ℕ} {items : List ℕ} (hi : w.ItemsOk)
    (hitems : ∀ item ∈ items, item ∈ w.inventory p) :
    (w.sendChecked p q money cod items t).ItemsOk := by
  have hlist : ∀ item, (w.sendChecked p q money cod items t).listings item =
      items.dedup.count item + w.listings item := fun item => listings_sendMailTo ..
  have hinv : (w.sendChecked p q money cod items t).inventory =
      update w.inventory p ((w.inventory p).filter (· ∉ items)) := rfl
  have hold : ∀ r item, item ∈ (w.sendChecked p q money cod items t).inventory r →
      item ∈ w.inventory r ∧ (r = p → item ∉ items) := by
    intro r item h
    rw [hinv] at h
    by_cases hr : r = p
    · subst hr
      rw [update_self] at h
      obtain ⟨h1, h2⟩ := mem_filter.1 h
      exact ⟨h1, fun _ => by simpa using h2⟩
    · rw [update_of_ne hr] at h
      exact ⟨h, fun h' => absurd h' hr⟩
  refine ⟨fun item => ?_, fun r item h => ?_, fun r r' item h h' => ?_⟩
  · rw [hlist]
    by_cases hitem : item ∈ items
    · have := hi.apart p item (hitems item hitem)
      have := count_dedup_le items item
      omega
    · rw [count_eq_zero_of_not_mem (by simpa using hitem), zero_add]
      exact hi.once item
  · obtain ⟨h1, h2⟩ := hold r item h
    have hitem : item ∉ items := fun hmem =>
      h2 (hi.own r p item h1 (hitems item hmem)) hmem
    rw [hlist, count_eq_zero_of_not_mem (by simpa using hitem), zero_add]
    exact hi.apart r item h1
  · exact hi.own r r' item (hold r item h).1 (hold r' item h').1

theorem listings_payCod (item : ℕ) : (w.payCod p m now).listings item = w.listings item := by
  unfold payCod
  split_ifs
  · exact (listings_sendMailTo ..).trans (by simp)
  · rfl
  · rfl

/-- An item taken from the mail that lists it is listed nowhere any more. -/
theorem listings_takeItemFrom (now : ℕ) (hw : w.WF) (hi : w.ItemsOk) (hp : p ∈ w.characters)
    (hm : w.getMail p id = some m) (hcod : m.cod ≤ w.money p) (h31 : m.cod < 2 ^ 31)
    (hitem : item ∈ m.items) (x : ℕ) :
    (w.takeItemFrom p item m now).listings x = if x = item then 0 else w.listings x := by
  have hmem := (mem_of_getMail hm).1
  obtain ⟨hwf, -, -, hmails⟩ := payCod_spec now hw hp hmem hcod h31
  have hfind : find Mail.messageID (w.payCod p m now).mails m.messageID = some m := by
    refine find_of_mem hwf.nodup ?_
    rcases hmails with ⟨-, heq⟩ | ⟨pay, heq, -⟩ <;> rw [heq]
    · exact hmem
    · exact mem_cons_of_mem _ hmem
  have hset := listings_setMail
    { m with items := m.items.erase item, cod := 0, state := .changed } hwf hfind x
  rw [listings_payCod] at hset
  have hle := count_le_listings hmem x
  have hframe : (w.takeItemFrom p item m now).listings x = ((w.payCod p m now).setMail
    { m with items := m.items.erase item, cod := 0, state := .changed }).listings x := rfl
  split_ifs with hx
  · subst hx
    rw [count_erase_self] at hset
    have := hi.once x
    have := one_le_count_iff.2 hitem
    omega
  · rw [count_erase_of_ne hx] at hset
    omega

theorem inventory_takeItemFrom : (w.takeItemFrom p item m now).inventory =
    update w.inventory p (item :: w.inventory p) := by
  have hpay : (w.payCod p m now).inventory = w.inventory := by
    unfold payCod
    split_ifs <;> rfl
  simp only [takeItemFrom, moveItemToInventory, removeMItem, setMail, hpay]

theorem ItemsOk.takeItemFrom (hw : w.WF) (hi : w.ItemsOk) (hp : p ∈ w.characters)
    (hm : w.getMail p id = some m) (hcod : m.cod ≤ w.money p) (h31 : m.cod < 2 ^ 31)
    (hitem : item ∈ m.items) : (w.takeItemFrom p item m now).ItemsOk := by
  have hlist := listings_takeItemFrom now hw hi hp hm hcod h31 hitem
  have hone : 1 ≤ w.listings item :=
    (one_le_count_iff.2 hitem).trans (count_le_listings (mem_of_getMail hm).1 item)
  have hold : ∀ r x, x ∈ (w.takeItemFrom p item m now).inventory r →
      x ∈ w.inventory r ∨ r = p ∧ x = item := by
    intro r x h
    rw [inventory_takeItemFrom] at h
    by_cases hr : r = p
    · subst hr
      rw [update_self] at h
      rcases mem_cons.1 h with h | h
      · exact .inr ⟨rfl, h⟩
      · exact .inl h
    · rw [update_of_ne hr] at h
      exact .inl h
  -- nobody held the item while the mail listed it
  have hfree : ∀ r, item ∉ w.inventory r := fun r h => by
    have := hi.apart r item h
    omega
  refine ⟨fun x => ?_, fun r x h => ?_, fun r r' x h h' => ?_⟩
  · rw [hlist]
    split_ifs
    · exact Nat.zero_le _
    · exact hi.once x
  · rw [hlist]
    split_ifs with hx
    · rfl
    · rcases hold r x h with h | ⟨-, h⟩
      · exact hi.apart r x h
      · exact absurd h hx
  · rcases hold r x h with hr | ⟨hr, hx⟩ <;> rcases hold r' x h' with hr' | ⟨hr', hx'⟩
    · exact hi.own r r' x hr hr'
    · exact absurd (hx' ▸ hr) (hfree r)
    · exact absurd (hx ▸ hr') (hfree r')
    · rw [hr, hr']

/-- A returned mail lists no more than the mail it returns. -/
theorem listings_returnToSender_le {t : ℕ} (hw : w.WF) (hm : w.getMail p id = some m) (item : ℕ) :
    (((w.removeMail id).removeMItems p m.items).sendMailTo (w.returnDraft p m) .normal
      m.receiver m.sender t).listings item ≤ w.listings item := by
  have hmails := (removeMItems_frame (p := p) m.items (w.removeMail id)).2.2.1
  have hid := (mem_of_getMail hm).2.1
  have hback := listings_removeMail id hw (hid ▸ find_of_getMail hw hm) item
  have hframe : ((w.removeMail id).removeMItems p m.items).listings item =
      (w.removeMail id).listings item := by
    simp only [listings, hmails]
  have hdraft : (w.returnDraft p m).items.count item ≤ m.items.count item :=
    ((dedup_sublist _).trans filter_sublist).count_le item
  rw [listings_sendMailTo, hframe]
  omega

end MailWorld

/-! ## Runs -/

open MailWorld

/-- The request names an item of the mail it names, whose COD fits a signed word. -/
def Listed (w : MailWorld) (r : MailRequest) : Prop :=
  Unwrapped w r ∧
    ∀ player mailId item canStore now m, r = .takeItem player mailId item canStore now →
      w.getMail player mailId = some m → item ∈ w.mItems player → item ∈ m.items

/-- Every item that enters an inventory was listed in the mail that the request names, in no
other mail, and is taken off it; if the mail has a COD, the player is debited exactly the
COD and the mail's sender gets it. -/
structure CodHonoured (w : MailWorld) (r : MailRequest) : Prop where
  enters : ∀ q item, item ∈ (mailStep w r).inventory q → item ∈ w.inventory q ∨
    ∃ mailId canStore now, r = .takeItem q mailId item canStore now ∧ q ∈ w.characters ∧
      (mailServe w r).2 = .ok
  taken : ∀ q mailId item canStore now, r = .takeItem q mailId item canStore now →
    q ∈ w.characters → (mailServe w r).2 = .ok → ∃ m, w.getMail q mailId = some m ∧
      item ∈ m.items ∧ (∀ m' ∈ w.mails, item ∈ m'.items → m' = m) ∧
      (∀ m' ∈ (mailStep w r).mails, item ∉ m'.items) ∧
      (m.cod ≠ 0 → (mailStep w r).money q + m.cod = w.money q ∧
        ∃ pay ∈ (mailStep w r).mails, pay ∉ w.mails ∧ pay.receiver = m.sender ∧
          pay.money = m.cod)

variable {w : MailWorld} {p : ℕ}

theorem CodHonoured.of_inventory {r : MailRequest}
    (hinv : ∀ q item, item ∈ (mailStep w r).inventory q → item ∈ w.inventory q)
    (htake : ∀ q mailId item canStore now, r = .takeItem q mailId item canStore now →
      (mailServe w r).2 ≠ .ok) : CodHonoured w r := by
  refine ⟨fun q item h => .inl (hinv q item h), ?_⟩
  intro q mailId item canStore now hr _ hok
  exact absurd hok (htake q mailId item canStore now hr)

theorem takeItem_honoured {canStore : Bool} (hw : w.WF) (hi : w.ItemsOk) (hp : p ∈ w.characters)
    (hx : Listed w (.takeItem p id item canStore now)) :
    (mailStep w (.takeItem p id item canStore now)).ItemsOk ∧
      CodHonoured w (.takeItem p id item canStore now) := by
  have hstep := mailStep_eq (r := .takeItem p id item canStore now) hp
  rcases handleMailTakeItem_cases
    (rfl : w.handleMailTakeItem p id item canStore now = _) with ⟨heq, hne⟩ | ⟨m, hm, hlive, hcod, hitem, heq⟩
  · have hsame := hstep.trans heq
    refine ⟨by rwa [hsame], CodHonoured.of_inventory (fun q x h => hsame ▸ h) ?_⟩
    rintro _ _ _ _ _ ⟨⟩
    exact hne
  · have h31 := hx.1 m hm hitem
    have hlisted := hx.2 _ _ _ _ _ m rfl hm hitem
    have hsame := hstep.trans (congrArg Prod.fst heq)
    have hlist := listings_takeItemFrom now hw hi hp hm hcod h31 hlisted item
    rw [if_pos rfl] at hlist
    obtain ⟨hdebit, hpay⟩ := takeItemFrom_pays item now hw hp hm hcod h31
    rw [hsame]
    refine ⟨(hi.takeItemFrom hw hp hm hcod h31 hlisted).of_le rfl listings_saveMail_le, ?_, ?_⟩
    · intro q x h
      rw [hsame] at h
      have h' : x ∈ (w.takeItemFrom p item m now).inventory q := h
      rw [inventory_takeItemFrom] at h'
      by_cases hq : q = p
      · subst hq
        rw [update_self] at h'
        rcases mem_cons.1 h' with rfl | h'
        · exact .inr ⟨id, canStore, now, rfl, hp, congrArg Prod.snd heq⟩
        · exact .inl h'
      · rw [update_of_ne hq] at h'
        exact .inl h'
    · rintro _ _ _ _ _ ⟨⟩ _ _
      rw [hsame]
      refine ⟨m, hm, hlisted, fun m' hm' hitem' =>
        hi.eq_of_mem hw (mem_of_getMail hm).1 hm' hlisted hitem', fun m' hm' hitem' => ?_,
        fun h0 => ⟨hdebit, hpay h0⟩⟩
      have h1 := count_le_listings (w := (w.takeItemFrom p item m now).saveMail p) hm' item
      have h2 := listings_saveMail_le (w := w.takeItemFrom p item m now) (p := p) item
      have h3 := one_le_count_iff.2 hitem'
      omega

/-- A request that leaves the inventories alone and lists nothing new. -/
theorem honoured_of_le {w' : MailWorld} {r : MailRequest} (hi : w.ItemsOk)
    (hstep : mailStep w r = w') (hinv : w'.inventory = w.inventory)
    (hle : ∀ item, w'.listings item ≤ w.listings item)
    (htake : ∀ q mailId item canStore now, r ≠ .takeItem q mailId item canStore now) :
    (mailStep w r).ItemsOk ∧ CodHonoured w r := by
  subst hstep
  refine ⟨hi.of_le hinv hle, CodHonoured.of_inventory (fun q item h => hinv ▸ h) ?_⟩
  intro q mailId item canStore now hr
  exact absurd hr (htake q mailId item canStore now)

theorem sendMail_honoured {ready : Bool} {receiver : Option ℕ} {money cod t : ℕ} {items : List ℕ}
    {refusal : Option MailError} (hi : w.ItemsOk) (hp : p ∈ w.characters) :
    (mailStep w (.sendMail p ready receiver money cod items refusal t)).ItemsOk ∧
      CodHonoured w (.sendMail p ready receiver money cod items refusal t) := by
  have hstep := mailStep_eq (r := .sendMail p ready receiver money cod items refusal t) hp
  rcases handleSendMail_cases
    (rfl : w.handleSendMail p ready receiver money cod items refusal t = _) with
    ⟨heq, -⟩ | ⟨q, -, -, -, -, hitems, heq⟩
  · exact honoured_of_le hi (hstep.trans heq) rfl (fun _ => le_rfl) (by simp)
  · have hsame := hstep.trans (congrArg Prod.fst heq)
    rw [hsame]
    refine ⟨hi.sendChecked hitems, CodHonoured.of_inventory (fun r x h => ?_) (by simp)⟩
    rw [hsame] at h
    have h' : x ∈ update w.inventory p ((w.inventory p).filter (· ∉ items)) r := h
    by_cases hr : r = p
    · subst hr
      rw [update_self] at h'
      exact mem_of_mem_filter h'
    · rwa [update_of_ne hr] at h'

theorem takeMoney_honoured {money : ℕ} (hw : w.WF) (hi : w.ItemsOk) (hp : p ∈ w.characters) :
    (mailStep w (.takeMoney p id money now)).ItemsOk ∧
      CodHonoured w (.takeMoney p id money now) := by
  have hstep := mailStep_eq (r := .takeMoney p id money now) hp
  rcases handleMailTakeMoney_cases (rfl : w.handleMailTakeMoney p id money now = _)
    with ⟨heq, -⟩ | ⟨m, hm, -, -, heq⟩
  · exact honoured_of_le hi (hstep.trans heq) rfl (fun _ => le_rfl) (by simp)
  · refine honoured_of_le hi (hstep.trans (congrArg Prod.fst heq)) rfl (fun item => ?_) (by simp)
    refine (listings_saveMail_le item).trans ?_
    have hset := listings_setMail (m := m) { m with money := 0, state := .changed } hw
      (find_of_getMail hw hm : find Mail.messageID w.mails m.messageID = some m) item
    exact (Nat.add_right_cancel hset).le

theorem returnToSender_honoured {t : ℕ} (hw : w.WF) (hi : w.ItemsOk) (hp : p ∈ w.characters) :
    (mailStep w (.returnToSender p id now t)).ItemsOk ∧
      CodHonoured w (.returnToSender p id now t) := by
  have hstep := mailStep_eq (r := .returnToSender p id now t) hp
  rcases handleMailReturnToSender_cases (rfl : w.handleMailReturnToSender p id now t = _)
    with ⟨heq, -⟩ | ⟨m, hm, -, -, hcases⟩
  · exact honoured_of_le hi (hstep.trans heq) rfl (fun _ => le_rfl) (by simp)
  · have hid := (mem_of_getMail hm).2.1
    obtain ⟨-, -, hmails, -, hinv, -⟩ := removeMItems_frame (p := p) m.items (w.removeMail id)
    have hremove : ∀ item, (w.removeMail id).listings item ≤ w.listings item := fun item =>
      Nat.le.intro (listings_removeMail id hw (hid ▸ find_of_getMail hw hm) item)
    rcases hcases with ⟨-, -, -, heq⟩ | ⟨-, -, heq⟩ | ⟨-, heq⟩
    · exact honoured_of_le hi (hstep.trans heq) hinv (listings_returnToSender_le hw hm) (by simp)
    · refine honoured_of_le hi (hstep.trans heq) hinv (fun item => ?_) (by simp)
      rw [listings, hmails]
      exact hremove item
    · exact honoured_of_le hi (hstep.trans heq) rfl hremove (by simp)

theorem delete_honoured (hw : w.WF) (hi : w.ItemsOk) (hp : p ∈ w.characters) :
    (mailStep w (.delete p id)).ItemsOk ∧ CodHonoured w (.delete p id) := by
  have hstep := mailStep_eq (r := .delete p id) hp
  simp only [mailServe, handleMailDelete] at hstep
  split at hstep
  · exact honoured_of_le hi hstep rfl (fun _ => le_rfl) (by simp)
  · rename_i m hm
    split_ifs at hstep
    · exact honoured_of_le hi hstep rfl (fun _ => le_rfl) (by simp)
    · refine honoured_of_le hi hstep rfl (fun item => ?_) (by simp)
      have hset := listings_setMail (m := m) { m with state := .deleted } hw
        (find_of_getMail hw hm : find Mail.messageID w.mails m.messageID = some m) item
      exact (Nat.add_right_cancel hset).le

/-- A listed request keeps every item in one place and honours the COD. -/
theorem mailStep_honoured (w : MailWorld) (r : MailRequest) (hw : w.WF ∧ w.ItemsOk)
    (hx : Listed w r) : ((mailStep w r).WF ∧ (mailStep w r).ItemsOk) ∧ CodHonoured w r := by
  obtain ⟨hw, hi⟩ := hw
  refine and_assoc.2 ⟨mailStep_wf hw hx.1, ?_⟩
  by_cases hp : r.player ∈ w.characters
  · cases r with
    | takeItem p id item canStore now => exact takeItem_honoured hw hi hp hx
    | sendMail p ready receiver money cod items refusal t => exact sendMail_honoured hi hp
    | takeMoney p id money now => exact takeMoney_honoured hw hi hp
    | returnToSender p id now t => exact returnToSender_honoured hw hi hp
    | delete p id => exact delete_honoured hw hi hp
    | loadMail p =>
      have hstep : mailStep w (.loadMail p) = w.loadMail p := mailStep_eq hp
      unfold loadMail at hstep
      split_ifs at hstep
      · exact honoured_of_le hi hstep rfl (fun _ => le_rfl) (by simp)
      · exact honoured_of_le hi hstep rfl (fun _ => le_rfl) (by simp)
    | logout p =>
      have hstep : mailStep w (.logout p) = w.logout p := mailStep_eq hp
      refine honoured_of_le hi hstep ?_ listings_logout_le (by simp)
      rw [logout]
      split_ifs <;> rfl
  · have hsame : mailStep w r = w := if_neg hp
    rw [hsame]
    refine ⟨hi, ?_, ?_⟩
    · intro q item h
      exact .inl (hsame ▸ h)
    · rintro q _ _ _ _ rfl hq
      exact absurd hq hp

/-- In every run of listed requests, every COD is honoured at every step. -/
theorem cod_run_honoured {rs : List MailRequest} (hw : w.WF) (hi : w.ItemsOk)
    (hx : Along mailStep Listed w rs) : Along mailStep CodHonoured w rs :=
  Along.of_invariant mailStep_honoured ⟨hw, hi⟩ hx

/-- A player with a mail whose item costs `500` and a letter. -/
def codPost : MailWorld where
  characters := {1, 2}
  money _ := 10000
  inventory _ := []
  loaded p := p = 2
  mItems p := if p = 2 then [50] else []
  mails := [⟨1, .normal, 1, 2, [50], 0, 0, 500, .unchanged⟩,
    ⟨2, .normal, 1, 2, [], 0, 0, 0, .unchanged⟩]
  nextMailId := 3

theorem codPost_wf : codPost.WF := by
  refine ⟨by decide, by decide, fun m hm => ?_, fun p => by simp [codPost, maxMoneyAmount]⟩
  have hcases : m = ⟨1, .normal, 1, 2, [50], 0, 0, 500, .unchanged⟩ ∨
      m = ⟨2, .normal, 1, 2, [], 0, 0, 0, .unchanged⟩ := by
    simpa [codPost] using hm
  rcases hcases with rfl | rfl
  · exact ⟨by decide, by decide, by decide, by decide, fun _ => by decide, fun _ => rfl⟩
  · exact ⟨by decide, by decide, by decide, by decide, fun _ => by decide, fun _ => rfl⟩

theorem codPost_itemsOk : codPost.ItemsOk := by
  refine ⟨fun item => ?_, fun p item h => absurd h not_mem_nil,
    fun p q item h => absurd h not_mem_nil⟩
  simp only [MailWorld.listings, codPost, map_cons, map_nil, sum_cons, sum_nil,
    count_nil, count_singleton]
  split_ifs <;> decide

theorem cod_run_honoured_codPost : codPost.WF ∧ codPost.ItemsOk ∧
    Along mailStep Listed codPost [.takeItem 2 1 50 true 0] ∧
    Along mailStep CodHonoured codPost [.takeItem 2 1 50 true 0] := by
  have hlisted : Along mailStep Listed codPost [.takeItem 2 1 50 true 0] := by
    have hget : codPost.getMail 2 1 = some ⟨1, .normal, 1, 2, [50], 0, 0, 500, .unchanged⟩ := by
      decide +kernel
    refine ⟨⟨fun m hm _ => ?_, ?_⟩, trivial⟩
    · obtain rfl := Option.some.inj (hget.symm.trans hm)
      decide
    · rintro _ _ _ _ _ m ⟨⟩ hm _
      obtain rfl := Option.some.inj (hget.symm.trans hm)
      decide
  exact ⟨codPost_wf, codPost_itemsOk, hlisted,
    cod_run_honoured codPost_wf codPost_itemsOk hlisted⟩

/-- Naming the letter, the player takes the item of the other mail and keeps his gold. -/
theorem takeItem_other_mail : codPost.WF ∧ codPost.ItemsOk ∧
    (mailStep codPost (.takeItem 2 2 50 true 0)).inventory 2 = [50] ∧
    (mailStep codPost (.takeItem 2 2 50 true 0)).money 2 = codPost.money 2 ∧
    ¬Along mailStep CodHonoured codPost [.takeItem 2 2 50 true 0] := by
  refine ⟨codPost_wf, codPost_itemsOk, by decide +kernel, by decide +kernel, fun hrun => ?_⟩
  obtain ⟨m, hm, hitem, -⟩ := hrun.1.taken _ _ _ _ _ rfl (by decide) (by decide +kernel)
  have hget : codPost.getMail 2 2 = some ⟨2, .normal, 1, 2, [], 0, 0, 0, .unchanged⟩ := by
    decide +kernel
  obtain rfl := Option.some.inj (hget.symm.trans hm)
  exact absurd hitem (by decide)

end MistyWorld
