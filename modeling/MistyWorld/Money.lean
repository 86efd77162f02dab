import MistyWorld.Word

/-!
# A player's gold

`Player::ModifyMoney` and `Player::HasEnoughMoney`. The coinage field is a 64-bit
unsigned word, the amount of a change a 64-bit signed one. A debit stops at zero. A
credit that would reach `MAX_MONEY_AMOUNT` is refused, with the comparison made on
unsigned words : for an amount above the limit, the difference wraps around and the
credit goes through.
-/

open Word

namespace MistyWorld

/-- `MAX_MONEY_AMOUNT`. -/
def maxMoneyAmount : ℕ := 9999999999

/-- `Player::HasEnoughMoney(uint64)`. -/
def hasEnoughMoney (money amount : ℕ) : Bool :=
  amount ≤ money

/-- `Player::ModifyMoney` : the new coinage and the result. -/
def modifyMoney (money : ℕ) (amount : ℤ) : ℕ × Bool :=
  if amount = 0 then (money, true)
  else if amount < 0 then
    (if toU64 (-amount) < money then toU64 (money + amount) else 0, true)
  else if money < toU64 (maxMoneyAmount - amount) then (toU64 (money + amount), true)
  else (money, false)

/-- A debit the player can pay takes exactly its amount. -/
theorem modifyMoney_debit {money amount : ℕ} (hm : money < 2 ^ 63) (h : amount ≤ money) :
    modifyMoney money (-(amount : ℤ)) = (money - amount, true) := by
  unfold modifyMoney
  split_ifs with h0 h1 h2
  · simp only [Prod.mk.injEq, and_true]
    omega
  · unfold toU64
    simp only [Prod.mk.injEq, and_true]
    omega
  · simp only [toU64, Prod.mk.injEq, and_true] at h2 ⊢
    omega
  · omega
  · omega

/-- A credit of at most `MAX_MONEY_AMOUNT` adds exactly its amount and keeps the gold
below the limit, or changes nothing. -/
theorem modifyMoney_credit {money amount : ℕ} (hm : money ≤ maxMoneyAmount)
    (h : amount ≤ maxMoneyAmount) :
    (modifyMoney money amount = (money + amount, true) ∧ money + amount ≤ maxMoneyAmount) ∨
      modifyMoney money amount = (money, false) := by
  unfold modifyMoney
  unfold maxMoneyAmount at *
  split_ifs with h0 h1 h2
  · left
    simp only [Prod.mk.injEq, and_true]
    omega
  · omega
  · omega
  · left
    simp only [toU64, Prod.mk.injEq, and_true] at *
    omega
  · exact Or.inr rfl

/-- What a change of gold promises : the limit is kept, and either the gold changes by the amount,
down to zero at most, or the change is refused because the sum reaches the limit. -/
def ModifiesExactly (money : ℕ) (amount : ℤ) : Prop :=
  (modifyMoney money amount).1 ≤ maxMoneyAmount ∧
    ((modifyMoney money amount).2 = true ∧
        ((modifyMoney money amount).1 : ℤ) = max 0 (money + amount) ∨
      (modifyMoney money amount).2 = false ∧ (modifyMoney money amount).1 = money ∧
        (maxMoneyAmount : ℤ) ≤ money + amount)

theorem modifiesExactly_iff {money : ℕ} (hm : money ≤ maxMoneyAmount) {amount : ℤ}
    (hlo : -2 ^ 63 < amount) (hhi : amount < 2 ^ 63) :
    ModifiesExactly money amount ↔ amount ≤ maxMoneyAmount := by
  unfold ModifiesExactly modifyMoney
  unfold maxMoneyAmount at *
  rcases lt_trichotomy amount 0 with hneg | rfl | hpos
  · have hdebit : toU64 (-amount) < money ∧ toU64 (money + amount) = money + amount ∨
        ¬toU64 (-amount) < money ∧ money + amount ≤ 0 := by
      unfold toU64
      omega
    rw [if_neg hneg.ne, if_pos hneg]
    rcases hdebit with ⟨hlt, heq⟩ | ⟨hlt, hle⟩
    · simp only [if_pos hlt, heq, true_and, reduceCtorEq, false_and, or_false]
      omega
    · simp only [if_neg hlt, true_and, reduceCtorEq, false_and, or_false]
      omega
  · simp only [↓reduceIte, true_and, reduceCtorEq, false_and, or_false]
    omega
  · have hcredit : money < toU64 (((9999999999 : ℕ) : ℤ) - amount) ↔
        money + amount < 9999999999 ∨ 9999999999 < amount := by
      unfold toU64
      omega
    have hsum : (toU64 (money + amount) : ℤ) = money + amount :=
      toU64_of_range (by omega) (by omega)
    rw [if_neg hpos.ne', if_neg hpos.not_gt]
    split
    · next hlt =>
      have hlt := hcredit.mp hlt
      simp only [true_and, reduceCtorEq, false_and, or_false]
      omega
    · next hlt =>
      have hlt := mt hcredit.mpr hlt
      simp only [true_and, reduceCtorEq, false_and, false_or]
      omega

end MistyWorld
