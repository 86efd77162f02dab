import MistyWorld.Bytes
import Mathlib.Tactic.SplitIfs

/-!
# The parts of a guid

A guid of 64 bits has the low part, the entry and the high type. `MAKE_NEW_GUID` puts a high type of
12 bits above an entry of 20, and the types of 16 bits, the corpse and the area trigger, above an
entry of 16. `GUID_HIPART` takes the sixteen highest bits for one of these two types if they are it,
and drops four of them otherwise.

The four bits are the highest of the entry. Below the type of a dynamic object they can make up the
type of a corpse or of an area trigger. `GUID_ENPART` takes 20 bits for every type, so that the
entry of an area trigger comes with four bits of its type. A guid gives back its parts in all other
cases (`unpacks_iff`), and these are the only guids of different types that coincide
(`makeNewGuid_eq_iff`).
-/

namespace MistyWorld

/-- `HighGuid` -/
inductive HighGuid
  | item
  | container
  | player
  | gameObject
  | transport
  | unit
  | pet
  | vehicle
  | dynamicObject
  | corpse
  | areaTrigger
  | battleground
  | moTransport
  | group
  | guild
  deriving DecidableEq, Repr

namespace HighGuid

/-- The value of an enumerator. -/
def value : HighGuid → UInt32
  | item => 0x400
  | container => 0x400
  | player => 0x000
  | gameObject => 0xF11
  | transport => 0xF12
  | unit => 0xF13
  | pet => 0xF14
  | vehicle => 0xF15
  | dynamicObject => 0xF10
  | corpse => 0xF101
  | areaTrigger => 0xF102
  | battleground => 0x1F1
  | moTransport => 0x1FC
  | group => 0x1F5
  | guild => 0x1FF

end HighGuid

open HighGuid

/-- `PAIR64_LOPART` -/
def pair64LoPart (x : UInt64) : UInt32 :=
  (x &&& 0x00000000FFFFFFFF).toUInt32

/-- `MAKE_NEW_GUID` -/
def makeNewGuid (l e h : UInt32) : UInt64 :=
  l.toUInt64 ||| (e.toUInt64 <<< 32) |||
    (h.toUInt64 <<< (if h = corpse.value ∨ h = areaTrigger.value then 48 else 52))

/-- `GUID_HIPART` -/
def guidHiPart (guid : UInt64) : UInt32 :=
  let t := ((guid >>> 48) &&& 0x0000FFFF).toUInt32
  if t = corpse.value ∨ t = areaTrigger.value then t else (t >>> 4) &&& 0x00000FFF

/-- `IsGuidHaveEnPart` -/
def isGuidHaveEnPart (guid : UInt64) : Bool :=
  if guidHiPart guid ∈ [item.value, player.value, dynamicObject.value, corpse.value, group.value,
    guild.value] then false
  else true

/-- `GUID_ENPART` -/
def guidEnPart (x : UInt64) : UInt32 :=
  if isGuidHaveEnPart x then ((x >>> 32) &&& 0x00000000000FFFFF).toUInt32 else 0

/-- `GUID_LOPART` -/
def guidLoPart (x : UInt64) : UInt32 :=
  pair64LoPart x

/-- The bits of the entry field below a type. -/
def HighGuid.entryBits : HighGuid → ℕ
  | corpse => 16
  | areaTrigger => 16
  | _ => 20

/-- A guid gives back the parts it was made of, the entry if it has one. -/
def Unpacks (l e : UInt32) (h : HighGuid) : Prop :=
  guidLoPart (makeNewGuid l e h.value) = l ∧ guidHiPart (makeNewGuid l e h.value) = h.value ∧
    (isGuidHaveEnPart (makeNewGuid l e h.value) = true →
      guidEnPart (makeNewGuid l e h.value) = e)

instance (l e : UInt32) (h : HighGuid) : Decidable (Unpacks l e h) :=
  inferInstanceAs (Decidable (_ ∧ _ ∧ (_ → _)))

/-- A dynamic object with an entry that completes its type to the one of sixteen bits. -/
def CompletesType (e : UInt32) (h : HighGuid) (e' : UInt32) (h' : HighGuid) : Prop :=
  h = dynamicObject ∧
    (h' = corpse ∧ e.toNat = 0x10000 + e'.toNat ∨ h' = areaTrigger ∧ e.toNat = 0x20000 + e'.toNat)

/-! ## The number -/

theorem HighGuid.value_lt (h : HighGuid) : h.value.toNat < 2 ^ (32 - h.entryBits) := by
  cases h <;> decide

variable {h : HighGuid}

/-- The entry and the type share the upper half. -/
theorem entry_add_lt {e : UInt32} (he : e.toNat < 2 ^ h.entryBits) :
    e.toNat + 2 ^ h.entryBits * h.value.toNat < 2 ^ 32 := by
  have hvalue := h.value_lt
  have hbits : h.entryBits = 16 ∨ h.entryBits = 20 := by cases h <;> decide
  rcases hbits with hbits | hbits <;> rw [hbits] at he hvalue ⊢ <;> omega

/-- The parts do not overlap. -/
theorem toNat_makeNewGuid {l e : UInt32} (he : e.toNat < 2 ^ h.entryBits) :
    (makeNewGuid l e h.value).toNat =
      l.toNat + 2 ^ 32 * (e.toNat + 2 ^ h.entryBits * h.value.toNat) := by
  have hl := l.toNat_lt
  have hupper := entry_add_lt he
  have hshift : (if h.value = corpse.value ∨ h.value = areaTrigger.value then 48 else 52 :
      UInt64).toNat % 64 = 32 + h.entryBits := by
    cases h <;> decide
  have hlow : l.toNat + 2 ^ 32 * e.toNat < 2 ^ (32 + h.entryBits) := by
    rw [Nat.pow_add]
    omega
  have htype : 2 ^ (32 + h.entryBits) * h.value.toNat =
      2 ^ 32 * (2 ^ h.entryBits * h.value.toNat) := by
    rw [Nat.pow_add, Nat.mul_assoc]
  have hentry : e.toNat <<< 32 % 2 ^ 64 = e.toNat <<< 32 := by
    omega
  have hhigh : h.value.toNat <<< (32 + h.entryBits) % 2 ^ 64 =
      h.value.toNat <<< (32 + h.entryBits) := by
    rw [Nat.shiftLeft_eq, Nat.mul_comm, htype]
    omega
  rw [makeNewGuid, UInt64.toNat_or, UInt64.toNat_or, UInt64.toNat_shiftLeft,
    UInt64.toNat_shiftLeft, hshift, UInt32.toNat_toUInt64, UInt32.toNat_toUInt64,
    UInt32.toNat_toUInt64, hhigh, show (32 : UInt64).toNat % 64 = 32 from rfl, hentry,
    Bytes.or_shiftLeft _ hl, Bytes.or_shiftLeft _ hlow, htype]
  omega

theorem guidLoPart_makeNewGuid {l e : UInt32} (he : e.toNat < 2 ^ h.entryBits) :
    guidLoPart (makeNewGuid l e h.value) = l := by
  have hl := l.toNat_lt
  refine UInt32.toNat_inj.1 ?_
  rw [guidLoPart, pair64LoPart, UInt64.toNat_toUInt32, UInt64.toNat_and, toNat_makeNewGuid he,
    show (0x00000000FFFFFFFF : UInt64).toNat = 2 ^ 32 - 1 from rfl, Nat.and_two_pow_sub_one_eq_mod]
  omega

/-- The sixteen highest bits of a guid. -/
theorem toNat_highest (guid : UInt64) :
    ((guid >>> 48) &&& 0x0000FFFF).toUInt32.toNat = guid.toNat / 2 ^ 48 := by
  have hguid := guid.toNat_lt
  rw [UInt64.toNat_toUInt32, UInt64.toNat_and, UInt64.toNat_shiftRight,
    show (48 : UInt64).toNat % 64 = 48 from rfl, Nat.shiftRight_eq_div_pow,
    show (0x0000FFFF : UInt64).toNat = 2 ^ 16 - 1 from rfl, Nat.and_two_pow_sub_one_eq_mod]
  omega

/-! ## The parts -/

/-- The types of sixteen bits are the ones above. -/
theorem HighGuid.entryBits_eq (h : HighGuid) :
    h.entryBits = 16 ∧ (h.value.toNat = 0xF101 ∨ h.value.toNat = 0xF102) ∨
      h.entryBits = 20 ∧ h.value.toNat < 2 ^ 12 := by
  cases h <;> decide

theorem HighGuid.eq_dynamicObject_iff : h = dynamicObject ↔ h.value.toNat = 0xF10 := by
  cases h <;> decide

theorem HighGuid.eq_corpse_iff : h = corpse ↔ h.value.toNat = 0xF101 := by
  cases h <;> decide

theorem HighGuid.eq_areaTrigger_iff : h = areaTrigger ↔ h.value.toNat = 0xF102 := by
  cases h <;> decide

theorem toNat_guidHiPart (guid : UInt64) :
    (guidHiPart guid).toNat =
      if guid.toNat / 2 ^ 48 = 0xF101 ∨ guid.toNat / 2 ^ 48 = 0xF102 then guid.toNat / 2 ^ 48
      else guid.toNat / 2 ^ 52 := by
  have hguid := guid.toNat_lt
  have ht := toNat_highest guid
  have hcorpse : ∀ t : UInt32, t = corpse.value ↔ t.toNat = 0xF101 := fun t =>
    UInt32.toNat_inj.symm
  have harea : ∀ t : UInt32, t = areaTrigger.value ↔ t.toNat = 0xF102 := fun t =>
    UInt32.toNat_inj.symm
  simp only [guidHiPart, hcorpse, harea, ht]
  split_ifs
  · exact ht
  · rw [UInt32.toNat_and, UInt32.toNat_shiftRight, ht, show (4 : UInt32).toNat % 32 = 4 from rfl,
      Nat.shiftRight_eq_div_pow, show (0x00000FFF : UInt32).toNat = 2 ^ 12 - 1 from rfl,
      Nat.and_two_pow_sub_one_eq_mod, Nat.div_div_eq_div_mul]
    omega

/-- The type is found unless the entry of a dynamic object completes its type to another one. -/
theorem guidHiPart_makeNewGuid {l e : UInt32} (he : e.toNat < 2 ^ h.entryBits) :
    guidHiPart (makeNewGuid l e h.value) = h.value ↔
      (h = dynamicObject → e.toNat / 2 ^ 16 ≠ 1 ∧ e.toNat / 2 ^ 16 ≠ 2) := by
  have hl := l.toNat_lt
  rw [← UInt32.toNat_inj, toNat_guidHiPart, toNat_makeNewGuid he, eq_dynamicObject_iff]
  rcases h.entryBits_eq with ⟨hbits, hvalue⟩ | ⟨hbits, hvalue⟩
  · rw [hbits] at he ⊢
    rw [if_pos (by omega)]
    omega
  · rw [hbits] at he ⊢
    split_ifs <;> omega

theorem guidEnPart_of_hasEnPart {x : UInt64} (h : isGuidHaveEnPart x = true) :
    (guidEnPart x).toNat = x.toNat / 2 ^ 32 % 2 ^ 20 := by
  rw [guidEnPart, if_pos h, UInt64.toNat_toUInt32, UInt64.toNat_and, UInt64.toNat_shiftRight,
    show (32 : UInt64).toNat % 64 = 32 from rfl, Nat.shiftRight_eq_div_pow,
    show (0x00000000000FFFFF : UInt64).toNat = 2 ^ 20 - 1 from rfl, Nat.and_two_pow_sub_one_eq_mod]
  omega

/-- The entry is found if the field has 20 bits. -/
theorem guidEnPart_makeNewGuid {l e : UInt32} (he : e.toNat < 2 ^ h.entryBits)
    (hpart : isGuidHaveEnPart (makeNewGuid l e h.value) = true) (hcorpse : h ≠ corpse) :
    guidEnPart (makeNewGuid l e h.value) = e ↔ h ≠ areaTrigger := by
  have hl := l.toNat_lt
  rw [Ne, eq_corpse_iff] at hcorpse
  rw [← UInt32.toNat_inj, guidEnPart_of_hasEnPart hpart, toNat_makeNewGuid he, Ne,
    eq_areaTrigger_iff]
  rcases h.entryBits_eq with ⟨hbits, hvalue⟩ | ⟨hbits, hvalue⟩ <;>
    rw [hbits] at he ⊢ <;> omega

/-- A guid gives back its parts exactly when it is no area trigger, and no dynamic object with an
entry that completes its type. -/
theorem unpacks_iff {l e : UInt32} (he : e.toNat < 2 ^ h.entryBits) :
    Unpacks l e h ↔ h ≠ areaTrigger ∧
      (h = dynamicObject → e.toNat / 2 ^ 16 ≠ 1 ∧ e.toNat / 2 ^ 16 ≠ 2) := by
  have hdecide : isGuidHaveEnPart (makeNewGuid l e h.value) =
      if guidHiPart (makeNewGuid l e h.value) ∈ [item.value, player.value, dynamicObject.value,
        corpse.value, group.value, guild.value] then false else true := rfl
  rw [Unpacks, guidHiPart_makeNewGuid he]
  constructor
  · rintro ⟨-, hhi, hentry⟩
    refine ⟨?_, hhi⟩
    rintro rfl
    have hpart : isGuidHaveEnPart (makeNewGuid l e areaTrigger.value) = true := by
      rw [hdecide, (guidHiPart_makeNewGuid he).2 hhi]
      rfl
    exact (guidEnPart_makeNewGuid he hpart (by decide)).1 (hentry hpart) rfl
  · rintro ⟨harea, hhi⟩
    refine ⟨guidLoPart_makeNewGuid he, hhi, fun hpart => ?_⟩
    refine (guidEnPart_makeNewGuid he hpart ?_).2 harea
    rintro rfl
    rw [hdecide, (guidHiPart_makeNewGuid he).2 hhi] at hpart
    exact Bool.noConfusion hpart

/-- Guids of different types coincide exactly when one is of a dynamic object whose entry completes
its type to the other one. -/
theorem makeNewGuid_eq_iff {l e l' e' : UInt32} {h' : HighGuid} (he : e.toNat < 2 ^ h.entryBits)
    (he' : e'.toNat < 2 ^ h'.entryBits) (hne : h.value ≠ h'.value) :
    makeNewGuid l e h.value = makeNewGuid l' e' h'.value ↔
      l = l' ∧ (CompletesType e h e' h' ∨ CompletesType e' h' e h) := by
  have hl := l.toNat_lt
  have hl' := l'.toNat_lt
  have hvalue : h.value.toNat ≠ h'.value.toNat := fun h => hne (UInt32.toNat_inj.1 h)
  rw [← UInt64.toNat_inj, toNat_makeNewGuid he, toNat_makeNewGuid he', ← UInt32.toNat_inj]
  simp only [CompletesType, eq_dynamicObject_iff, eq_corpse_iff, eq_areaTrigger_iff]
  rcases h.entryBits_eq with ⟨hbits, hv⟩ | ⟨hbits, hv⟩ <;>
    rcases h'.entryBits_eq with ⟨hbits', hv'⟩ | ⟨hbits', hv'⟩ <;>
    rw [hbits] at he ⊢ <;> rw [hbits'] at he' ⊢ <;> omega

/-- For parts that fit their fields, a guid gives them back exactly when it is no area trigger and
the entry of a dynamic object does not complete its type, and guids of different types differ
exactly when neither completes its type to the other one. -/
theorem guid_parts_iff (l e l' e' : UInt32) (h h' : HighGuid) (he : e.toNat < 2 ^ h.entryBits)
    (he' : e'.toNat < 2 ^ h'.entryBits) :
    (Unpacks l e h ↔ h ≠ areaTrigger ∧
      (h = dynamicObject → e.toNat / 2 ^ 16 ≠ 1 ∧ e.toNat / 2 ^ 16 ≠ 2)) ∧
    (h.value ≠ h'.value →
      (makeNewGuid l e h.value ≠ makeNewGuid l' e' h'.value ↔
        ¬(l = l' ∧ (CompletesType e h e' h' ∨ CompletesType e' h' e h)))) :=
  ⟨unpacks_iff he, fun hne => not_congr (makeNewGuid_eq_iff he he' hne)⟩

/-- A creature and an area trigger. -/
theorem guid_parts_iff_unit :
    (Unpacks 7 721 unit ↔ unit ≠ areaTrigger ∧
      (unit = dynamicObject → UInt32.toNat 721 / 2 ^ 16 ≠ 1 ∧ UInt32.toNat 721 / 2 ^ 16 ≠ 2)) ∧
    (makeNewGuid 7 721 unit.value ≠ makeNewGuid 7 0 areaTrigger.value ↔
      ¬((7 : UInt32) = 7 ∧
        (CompletesType 721 unit 0 areaTrigger ∨ CompletesType 0 areaTrigger 721 unit))) :=
  have h := guid_parts_iff 7 721 7 0 unit areaTrigger (by decide) (by decide)
  ⟨h.1, h.2 (by decide)⟩

/-- The entry of an area trigger comes back with four bits of its type. A dynamic object with an
entry above 16 bits is taken for a corpse, and its guid is the one of a corpse. -/
theorem not_unpacks_areaTrigger :
    ¬Unpacks 1 0 areaTrigger ∧ guidEnPart (makeNewGuid 1 0 areaTrigger.value) = 0x20000 ∧
      ¬Unpacks 1 0x10005 dynamicObject ∧
      makeNewGuid 1 0x10005 dynamicObject.value = makeNewGuid 1 5 corpse.value := by
  decide +kernel

end MistyWorld
