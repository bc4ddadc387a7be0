import RangeLedger.Address
import RangeLedger.Table.Map

/-!
# The bank

The bank holds a balance for each account and denomination; an account without an entry holds
nothing. A transfer moves every coin of a list or none. It is judged on the totals of the list: the
sender has to hold the total of each denomination, and, unless sender and recipient are the same,
the recipient has to be able to take it. Coins of no amount do not count.

## Main results

* `balance_credit`, `balance_mint`: balances after an entry and after a minting.
* `refusalInOrder_eq_none_iff`: whether totals are refused does not depend on their order.
* `send_eq_ok_iff`: a transfer succeeds exactly when no total of its coins is refused.
-/

namespace RangeLedger

/-- An amount of one denomination. -/
@[ext]
structure Coin where
  denom : String
  amount : Amount
deriving DecidableEq

/-- What a balance is filed under: an account and a denomination. -/
@[ext]
structure Holding where
  owner : Address
  denom : String
deriving DecidableEq

namespace Holding

/-- Holdings are ordered by owner, then by denomination. -/
def order : Holding → Holding → Ordering := compareLex (compareOn owner) (compareOn denom)

instance : Ord Holding := ⟨order⟩

instance : Std.TransOrd Holding := by
  unfold Std.TransOrd
  exact inferInstanceAs (Std.TransCmp (compareLex (compareOn owner) (compareOn denom)))

instance : Std.LawfulEqOrd Holding where
  eq_of_compare {a b} h := by
    have h : order a b = .eq := h
    simp only [order, compareLex_eq_eq, compareOn, Std.LawfulEqCmp.compare_eq_iff_eq] at h
    exact Holding.ext h.1 h.2

end Holding

/-- Why the bank refuses. -/
inductive BankError where
  | insufficientFunds (owner : Address) (denom : String) (available : Amount) (required : Nat)
  /-- The balance, or a total on the way to it, would exceed 128 bits. -/
  | balanceOverflow (owner : Address) (denom : String)
deriving DecidableEq

/-- The text that reports a refusal. -/
def BankError.message : BankError → String
  | insufficientFunds owner denom available required =>
    s!"{owner.toChecksumText} holds {available.val}{denom} but {required}{denom} is required"
  | balanceOverflow owner denom => s!"balance of {denom} for {owner.toChecksumText} overflows"

/-- Balances by account and denomination. -/
structure Bank where
  balances : Map Holding Amount
deriving DecidableEq

namespace Bank

/-- The bank in which nobody holds anything. -/
def empty : Bank := ⟨Map.empty⟩

/-- What an account holds of a denomination. -/
def balance (b : Bank) (owner : Address) (denom : String) : Amount :=
  b.balances.getD ⟨owner, denom⟩ Amount.zero

/-- Sets a balance to the amount that is nearest to `n`. -/
def setBalance (b : Bank) (owner : Address) (denom : String) (n : Int) : Bank :=
  ⟨b.balances.insert ⟨owner, denom⟩ (Bounded.clamp Amount.zero_le_max n)⟩

/-- Adds to a balance. -/
def credit (b : Bank) (owner : Address) (denom : String) (n : Int) : Bank :=
  b.setBalance owner denom ((b.balance owner denom).val + n)

/-- Creates coins in an account. -/
def mint (b : Bank) (owner : Address) (coin : Coin) : Except BankError Bank :=
  if (b.balance owner coin.denom).val + coin.amount.val < Amount.limit then
    .ok (b.credit owner coin.denom coin.amount.val)
  else .error (.balanceOverflow owner coin.denom)

/-- The total amount of each denomination in a list of coins, in ascending order of
denominations. -/
def totals (coins : List Coin) : Map String Nat :=
  (coins.filter fun c => decide (0 < c.amount.val)).foldl
    (fun m c => m.insert c.denom (m.getD c.denom 0 + c.amount.toNat)) Map.empty

/-- Why a total cannot be told in 128 bits, if it cannot. -/
def totalRefusal (dst : Address) (total : String × Nat) : Option BankError :=
  if total.2 < Amount.limit then none else some (.balanceOverflow dst total.1)

/-- Why the bank refuses to move a total of one denomination, if it does. -/
def refusal (b : Bank) (src dst : Address) (total : String × Nat) : Option BankError :=
  let available := b.balance src total.1
  if available.val < total.2 then
    some (.insufficientFunds src total.1 available total.2)
  else if src ≠ dst ∧ Amount.limit ≤ (b.balance dst total.1).val + total.2 then
    some (.balanceOverflow dst total.1)
  else none

/-- Moves a total of one denomination from one account to another. -/
def move (src dst : Address) (b : Bank) (total : String × Nat) : Bank :=
  (b.credit src total.1 (-total.2)).credit dst total.1 total.2

/-- Why the bank refuses to move totals that it looks at in the given order, if it does: first each
of them is told, then each is held against the balances. -/
def refusalInOrder (b : Bank) (src dst : Address) (ts : List (String × Nat)) : Option BankError :=
  (ts.findSome? (totalRefusal dst)).or (ts.findSome? (refusal b src dst))

/-- Why the bank refuses to transfer a list of coins, if it does. The totals are looked at in
ascending order of denominations. In another order the same transfers are refused, but where several
totals are, another one may be named. -/
def sendRefusal (b : Bank) (src dst : Address) (coins : List Coin) : Option BankError :=
  b.refusalInOrder src dst (totals coins).toList

/-- Transfers the coins of a list, all of them or none. -/
def send (b : Bank) (src dst : Address) (coins : List Coin) : Except BankError Bank :=
  match b.sendRefusal src dst coins with
  | some e => .error e
  | none => .ok (if src = dst then b else (totals coins).toList.foldl (move src dst) b)

/-! ### Balances -/

/-- A credit that leaves its balance in the word adds to that balance and to no other. -/
theorem balance_credit {b : Bank} {owner : Address} {denom : String} {n : Int}
    (h : 0 ≤ (b.balance owner denom).val + n) (h' : (b.balance owner denom).val + n < Amount.limit)
    (owner' : Address) (denom' : String) :
    ((b.credit owner denom n).balance owner' denom').val =
      (b.balance owner' denom').val + if owner = owner' ∧ denom = denom' then n else 0 := by
  unfold credit setBalance
  rw [balance, Map.getD, Map.get?_insert]
  by_cases heq : owner = owner' ∧ denom = denom'
  · obtain ⟨rfl, rfl⟩ := heq
    unfold Amount.limit at h'
    simp only [and_self, if_true, Option.getD_some, Bounded.clamp]
    omega
  · rw [if_neg heq, if_neg (by simpa [Holding.ext_iff] using heq)]
    simp [balance, Map.getD]

/-- **A minting** adds its coin to the balance of its owner, and to no other. -/
theorem balance_mint {b b' : Bank} {owner : Address} {coin : Coin} (h : b.mint owner coin = .ok b')
    (owner' : Address) (denom' : String) :
    (b'.balance owner' denom').val =
      (b.balance owner' denom').val +
        if owner = owner' ∧ coin.denom = denom' then coin.amount.val else 0 := by
  unfold mint at h
  split at h
  next hlt =>
    injection h with h
    subst h
    have := (b.balance owner coin.denom).lo_le
    have := coin.amount.lo_le
    exact balance_credit (by omega) hlt owner' denom'
  next => cases h

/-- Totals are refused in an order exactly when one of them is: the order decides which one is
named, not whether any is. -/
theorem refusalInOrder_eq_none_iff {b : Bank} {src dst : Address} {ts : List (String × Nat)} :
    b.refusalInOrder src dst ts = none ↔
      ∀ t ∈ ts, totalRefusal dst t = none ∧ refusal b src dst t = none := by
  simp only [refusalInOrder, Option.or_eq_none_iff, List.findSome?_eq_none_iff, ← forall_and]

/-- A transfer succeeds exactly when every total fits its word and none is refused. -/
theorem send_eq_ok_iff {b b' : Bank} {src dst : Address} {coins : List Coin} :
    b.send src dst coins = .ok b' ↔
      (∀ t ∈ (totals coins).toList, totalRefusal dst t = none ∧ refusal b src dst t = none) ∧
        (if src = dst then b else (totals coins).toList.foldl (move src dst) b) = b' := by
  rw [send, ← refusalInOrder_eq_none_iff, sendRefusal]
  cases b.refusalInOrder src dst (totals coins).toList with
  | none => simp
  | some e => simp

end Bank

end RangeLedger
