import RangeLedger.Ledger.Calls
import RangeLedger.Proofs.Storage.Commit
import Mathlib

/-!
# Balances after transfers

A transfer collects its coins into one total for each denomination, checks every total against the
balances, and then moves the totals one after another. As the totals are of different denominations,
the checks stay true while the totals are moved, and each balance changes once at most: by the
amount of its denomination in the list of coins.

## Main results

* `Bank.balance_send`: every balance after a transfer.
* `Bank.exists_send_iff`: when a transfer is made.
* `Bank.send_back`: a transfer can be made back, which restores every balance.
* `Bank.send_swap`: two transfers to one recipient can change places.
* `Bank.refusalInOrder_eq_insufficientFunds`: a refusal for missing funds names a denomination that
  the sender lacks, in whatever order the totals are looked at.
-/

namespace RangeLedger

namespace Bank

/-- The amount of a denomination in a list of coins. -/
def amountOf (coins : List Coin) (denom : String) : Nat :=
  (coins.map fun coin => if coin.denom = denom then coin.amount.toNat else 0).sum

/-- Without coins there is nothing of any denomination. -/
@[simp] theorem amountOf_nil (denom : String) : amountOf [] denom = 0 := rfl

/-- The first coin counts if it is of the denomination, and so do the others. -/
theorem amountOf_cons (coin : Coin) (coins : List Coin) (denom : String) :
    amountOf (coin :: coins) denom =
      (if coin.denom = denom then coin.amount.toNat else 0) + amountOf coins denom :=
  List.sum_cons

/-- Coins of no amount do not count. -/
theorem amountOf_filter (coins : List Coin) (denom : String) :
    amountOf (coins.filter fun coin => decide (0 < coin.amount.val)) denom =
      amountOf coins denom := by
  induction coins with
  | nil => rfl
  | cons coin rest ih =>
    by_cases hpos : 0 < coin.amount.val
    · rw [List.filter_cons_of_pos (by simpa using hpos), amountOf_cons, amountOf_cons, ih]
    · have hzero : coin.amount.toNat = 0 := Int.toNat_of_nonpos (Int.not_lt.1 hpos)
      rw [List.filter_cons_of_neg (by simpa using hpos), amountOf_cons, hzero, ite_self,
        Nat.zero_add, ih]

/-! ### Totals -/

/-- The total of a denomination is its amount. -/
theorem getD_totals (coins : List Coin) (denom : String) :
    (totals coins).getD denom 0 = amountOf coins denom := by
  have hfold (rest : List Coin) (m : Map String Nat) :
      (rest.foldl (fun m c => m.insert c.denom (m.getD c.denom 0 + c.amount.toNat)) m).getD
          denom 0 =
        m.getD denom 0 + amountOf rest denom := by
    induction rest generalizing m with
    | nil => rfl
    | cons coin rest ih =>
      rw [List.foldl_cons, ih, amountOf_cons]
      by_cases hdenom : coin.denom = denom
      · subst hdenom
        simp only [Map.getD, Map.get?_insert_self, Option.getD_some, if_true, Nat.add_assoc]
      · simp only [Map.getD, Map.get?_insert_of_ne _ _ hdenom, hdenom, if_false, Nat.zero_add]
  rw [totals, hfold, amountOf_filter]
  exact Nat.zero_add _

/-- A total is the amount of its denomination. -/
theorem eq_amountOf_of_mem {coins : List Coin} {t : String × Nat} (h : t ∈ (totals coins).toList) :
    t.2 = amountOf coins t.1 := by
  rw [← getD_totals]
  rw [Map.getD, Map.get?_eq_some_iff_mem.2 h, Option.getD_some]

/-- A denomination without a total is not among the coins. -/
theorem amountOf_eq_zero {coins : List Coin} {denom : String}
    (h : ∀ t ∈ (totals coins).toList, t.1 ≠ denom) : amountOf coins denom = 0 := by
  rw [← getD_totals]
  rw [Map.getD]
  cases hfound : (totals coins).get? denom with
  | none => rfl
  | some n => exact absurd rfl (h _ (Map.get?_eq_some_iff_mem.1 hfound))

/-! ### Accounts without entries -/

/-- An account without an entry holds nothing. -/
theorem balance_eq_zero {b : Bank} {owner : Address}
    (h : ∀ entry ∈ b.balances.toList, entry.1.owner ≠ owner) (denom : String) :
    b.balance owner denom = Amount.zero := by
  rw [balance, Map.getD]
  cases hfound : b.balances.get? ⟨owner, denom⟩ with
  | none => rfl
  | some n => exact absurd rfl (h _ (Map.get?_eq_some_iff_mem.1 hfound))

/-! ### Moving totals -/

variable {b b' : Bank} {src dst : Address} {coins : List Coin}

/-- Setting a balance leaves those in other denominations. -/
theorem balance_setBalance (b : Bank) (owner : Address) (denom : String) (n : Int)
    (owner' : Address) {denom' : String} (h : denom ≠ denom') :
    (b.setBalance owner denom n).balance owner' denom' = b.balance owner' denom' := by
  have hne : (⟨owner, denom⟩ : Holding) ≠ ⟨owner', denom'⟩ := fun heq =>
    h (congrArg Holding.denom heq)
  simp only [setBalance, balance, Map.getD]
  rw [Map.get?_insert_of_ne _ _ hne]

/-- A total of one denomination leaves the balances in others. -/
theorem balance_move_of_ne (b : Bank) {t : String × Nat} {denom : String} (h : t.1 ≠ denom)
    (owner : Address) : (move src dst b t).balance owner denom = b.balance owner denom := by
  simp only [move, credit]
  rw [balance_setBalance _ _ _ _ _ h, balance_setBalance _ _ _ _ _ h]

/-- Totals of other denominations leave a balance, one after another. -/
theorem balance_foldl_move_of_ne {ts : List (String × Nat)} {denom : String}
    (h : ∀ t ∈ ts, t.1 ≠ denom) (b : Bank) (owner : Address) :
    (ts.foldl (move src dst) b).balance owner denom = b.balance owner denom := by
  induction ts generalizing b with
  | nil => rfl
  | cons t rest ih =>
    rw [List.foldl_cons, ih (fun t' ht' => h t' (List.mem_cons_of_mem t ht')),
      balance_move_of_ne b (h t List.mem_cons_self)]

/-- A total can be told if it fits its word. -/
theorem totalRefusal_eq_none_iff {t : String × Nat} :
    totalRefusal dst t = none ↔ t.2 < Amount.limit := by
  rw [totalRefusal]
  split
  next h => exact iff_of_true rfl h
  next h => exact iff_of_false nofun h

/-- A total is not refused if the sender holds it and another recipient can take it. -/
theorem refusal_eq_none_iff {t : String × Nat} :
    refusal b src dst t = none ↔ (t.2 : Int) ≤ (b.balance src t.1).val ∧
      (src ≠ dst → (b.balance dst t.1).val + t.2 < Amount.limit) := by
  simp only [refusal]
  split
  next hfunds => exact iff_of_false nofun fun h => absurd hfunds (Int.not_lt.2 h.1)
  next hfunds =>
    split
    next hroom => exact iff_of_false nofun fun h => absurd hroom.2 (Int.not_le.2 (h.2 hroom.1))
    next hroom =>
      exact iff_of_true rfl ⟨Int.not_lt.1 hfunds, fun hne => Int.not_le.1 fun h => hroom ⟨hne, h⟩⟩

/-- A total that is not refused moves from the one account to the other. -/
theorem balance_move (hne : src ≠ dst) {t : String × Nat} (h : refusal b src dst t = none)
    (owner : Address) :
    ((move src dst b t).balance owner t.1).val = (b.balance owner t.1).val +
      (if dst = owner then (t.2 : Int) else 0) - (if src = owner then (t.2 : Int) else 0) := by
  obtain ⟨hfunds, hroom⟩ := refusal_eq_none_iff.1 h
  have hroom := hroom hne
  have hle := (b.balance src t.1).le_hi
  have hnonneg := (b.balance dst t.1).lo_le
  have hpaid (owner' : Address) : ((b.credit src t.1 (-t.2)).balance owner' t.1).val =
      (b.balance owner' t.1).val + if src = owner' then -(t.2 : Int) else 0 := by
    rw [balance_credit (by omega) (by rw [Amount.limit]; omega)]
    simp only [and_true]
  have hkept : ((b.credit src t.1 (-t.2)).balance dst t.1).val = (b.balance dst t.1).val := by
    rw [hpaid, if_neg hne, Int.add_zero]
  rw [move, balance_credit (by omega) (by omega), hpaid]
  simp only [and_true]
  split_ifs <;> omega

/-- Whether a total is refused depends on the balances in its denomination. -/
theorem refusal_congr {t : String × Nat} (h : ∀ owner, b'.balance owner t.1 = b.balance owner t.1) :
    refusal b' src dst t = refusal b src dst t := by
  simp only [refusal]
  rw [h, h]

/-- A total is refused as before when totals of other denominations have been moved. -/
theorem refusal_foldl_move {ts : List (String × Nat)} {t : String × Nat}
    (h : ∀ t' ∈ ts, t'.1 ≠ t.1) :
    refusal (ts.foldl (move src dst) b) src dst t = refusal b src dst t :=
  refusal_congr fun owner => balance_foldl_move_of_ne h b owner

/-- Totals of different denominations that are not refused all move, whatever their order. -/
theorem balance_foldl_move (hne : src ≠ dst) {ts : List (String × Nat)}
    (hdistinct : ts.Pairwise fun t t' => t.1 ≠ t'.1)
    (hchecked : ∀ t ∈ ts, refusal b src dst t = none) {t : String × Nat} (ht : t ∈ ts)
    (owner : Address) :
    ((ts.foldl (move src dst) b).balance owner t.1).val = (b.balance owner t.1).val +
      (if dst = owner then (t.2 : Int) else 0) - (if src = owner then (t.2 : Int) else 0) := by
  -- the totals before and behind it are of other denominations
  obtain ⟨before, behind, rfl⟩ := List.append_of_mem ht
  obtain ⟨-, hbehind, hbefore⟩ := List.pairwise_append.1 hdistinct
  have hbehind : ∀ t' ∈ behind, t'.1 ≠ t.1 := fun t' ht' =>
    ((List.pairwise_cons.1 hbehind).1 t' ht').symm
  have hbefore : ∀ t' ∈ before, t'.1 ≠ t.1 := fun t' ht' => hbefore t' ht' t List.mem_cons_self
  rw [List.foldl_append, List.foldl_cons, balance_foldl_move_of_ne hbehind,
    balance_move hne ((refusal_foldl_move hbefore).trans (hchecked t ht)),
    balance_foldl_move_of_ne hbefore]

/-- The totals of a list of coins are of different denominations. -/
theorem pairwise_totals (coins : List Coin) :
    (totals coins).toList.Pairwise fun t t' => t.1 ≠ t'.1 :=
  Table.pairwise_ne (totals coins).entries

/-! ### Transfers -/

/-- **Every balance after a transfer**: the sender has lost, and the recipient gained, the amounts
of the coins. -/
theorem balance_send (h : b.send src dst coins = .ok b') (owner : Address) (denom : String) :
    (b'.balance owner denom).val = (b.balance owner denom).val +
      (if dst = owner then (amountOf coins denom : Int) else 0) -
      (if src = owner then (amountOf coins denom : Int) else 0) := by
  obtain ⟨hchecked, hmoved⟩ := send_eq_ok_iff.1 h
  by_cases hne : src = dst
  · rw [if_pos hne] at hmoved
    rw [← hmoved, hne]
    omega
  rw [if_neg hne] at hmoved
  subst hmoved
  by_cases hsome : ∃ t ∈ (totals coins).toList, t.1 = denom
  · obtain ⟨t, ht, rfl⟩ := hsome
    rw [← eq_amountOf_of_mem ht]
    exact balance_foldl_move hne (pairwise_totals coins) (fun t' ht' => (hchecked t' ht').2) ht owner
  · have hnone : ∀ t ∈ (totals coins).toList, t.1 ≠ denom := fun t ht heq => hsome ⟨t, ht, heq⟩
    rw [balance_foldl_move_of_ne hnone, amountOf_eq_zero hnone]
    simp

/-- **A transfer can be made back**, and then every balance is what it was. -/
theorem send_back (h : b.send src dst coins = .ok b') :
    ∃ b'', b'.send dst src coins = .ok b'' ∧
      ∀ owner denom, b''.balance owner denom = b.balance owner denom := by
  have hbalance := balance_send h
  obtain ⟨hchecked, -⟩ := send_eq_ok_iff.1 h
  have hback : ∀ t ∈ (totals coins).toList,
      totalRefusal src t = none ∧ refusal b' dst src t = none := by
    intro t ht
    obtain ⟨htotal, hfunds⟩ := hchecked t ht
    refine ⟨totalRefusal_eq_none_iff.2 (totalRefusal_eq_none_iff.1 htotal), ?_⟩
    rw [refusal_eq_none_iff] at hfunds ⊢
    rw [hbalance, hbalance, ← eq_amountOf_of_mem ht]
    have hheld := (b.balance src t.1).le_hi
    have hnonneg := (b.balance dst t.1).lo_le
    rw [Amount.limit] at hfunds ⊢
    by_cases hne : src = dst
    · subst hne
      simp only [if_true, ne_eq, not_true_eq_false, false_implies, and_true] at hfunds ⊢
      omega
    · simp only [hne, Ne.symm hne, if_true, if_false]
      omega
  refine ⟨_, send_eq_ok_iff.2 ⟨hback, rfl⟩, fun owner denom => ?_⟩
  have hrestored := balance_send (send_eq_ok_iff.2 ⟨hback, rfl⟩) owner denom
  rw [hbalance] at hrestored
  exact Bounded.ext (by omega)

/-- **A transfer is made** if the sender holds every amount, and another recipient can take it. -/
theorem exists_send_iff : (∃ b', b.send src dst coins = .ok b') ↔
    ∀ denom, (amountOf coins denom : Int) ≤ (b.balance src denom).val ∧
      (src ≠ dst → (b.balance dst denom).val + amountOf coins denom < Amount.limit) := by
  constructor
  · rintro ⟨b', h⟩ denom
    obtain ⟨hchecked, -⟩ := send_eq_ok_iff.1 h
    by_cases hsome : ∃ t ∈ (totals coins).toList, t.1 = denom
    · obtain ⟨t, ht, rfl⟩ := hsome
      rw [← eq_amountOf_of_mem ht]
      exact refusal_eq_none_iff.1 (hchecked t ht).2
    · have hmax := (b.balance dst denom).le_hi
      rw [amountOf_eq_zero fun t ht heq => hsome ⟨t, ht, heq⟩, Amount.limit]
      exact ⟨(b.balance src denom).lo_le, fun _ => by omega⟩
  · intro h
    refine ⟨_, send_eq_ok_iff.2 ⟨fun t ht => ?_, rfl⟩⟩
    have hchecked := h t.1
    have hmax := (b.balance src t.1).le_hi
    rw [← eq_amountOf_of_mem ht] at hchecked
    refine ⟨totalRefusal_eq_none_iff.2 ?_, refusal_eq_none_iff.2 hchecked⟩
    rw [Amount.limit]
    omega

/-- **Two transfers to one recipient can change places**, and leave the same balances: what the
senders hold in the end, they held on the way, and what the recipient can take in the end, it could
take on the way. -/
theorem send_swap {src' : Address} {coins' : List Coin} {b₁ b₂ : Bank} (hsrc : src ≠ dst)
    (hsrc' : src' ≠ dst) (h : b.send src dst coins = .ok b₁)
    (h' : b₁.send src' dst coins' = .ok b₂) :
    ∃ k₁ k₂, b.send src' dst coins' = .ok k₁ ∧ k₁.send src dst coins = .ok k₂ ∧
      ∀ owner denom, k₂.balance owner denom = b₂.balance owner denom := by
  have hfirst := balance_send h
  have hsecond := balance_send h'
  obtain ⟨k₁, hk₁⟩ : ∃ k₁, b.send src' dst coins' = .ok k₁ := by
    refine exists_send_iff.2 fun denom => ⟨?_, fun _ => ?_⟩
    · have hfirst := hfirst src' denom
      have hsecond := hsecond src' denom
      have hleft := (b₂.balance src' denom).lo_le
      rw [if_neg hsrc'.symm] at hfirst hsecond
      rw [if_pos rfl] at hsecond
      split at hfirst <;> omega
    · have hfirst := hfirst dst denom
      have hsecond := hsecond dst denom
      have hmax := (b₂.balance dst denom).le_hi
      rw [if_pos rfl, if_neg hsrc] at hfirst
      rw [if_pos rfl, if_neg hsrc'] at hsecond
      rw [Amount.limit]
      omega
  have hswapped := balance_send hk₁
  obtain ⟨k₂, hk₂⟩ : ∃ k₂, k₁.send src dst coins = .ok k₂ := by
    refine exists_send_iff.2 fun denom => ⟨?_, fun _ => ?_⟩
    · have hfirst := hfirst src denom
      have hsecond := hsecond src denom
      have hswapped := hswapped src denom
      have hleft := (b₂.balance src denom).lo_le
      rw [if_neg hsrc.symm] at hfirst hsecond hswapped
      rw [if_pos rfl] at hfirst
      omega
    · have hfirst := hfirst dst denom
      have hsecond := hsecond dst denom
      have hswapped := hswapped dst denom
      have hmax := (b₂.balance dst denom).le_hi
      rw [if_pos rfl, if_neg hsrc] at hfirst
      rw [if_pos rfl, if_neg hsrc'] at hsecond hswapped
      rw [Amount.limit]
      omega
  refine ⟨k₁, k₂, hk₁, hk₂, fun owner denom => Bounded.ext ?_⟩
  rw [balance_send hk₂, hswapped, hsecond, hfirst]
  omega

/-! ### Missing funds -/

/-- An account holds less of a denomination than there is of it among some coins. -/
def Lacks (b : Bank) (owner : Address) (coins : List Coin) (denom : String) : Prop :=
  (b.balance owner denom).val < amountOf coins denom

instance (b : Bank) (owner : Address) (coins : List Coin) (denom : String) :
    Decidable (b.Lacks owner coins denom) :=
  inferInstanceAs (Decidable (_ < _))

variable {owner : Address} {denom : String} {available : Amount} {required : Nat}

/-- A total that is refused for missing funds is one that the sender does not hold. -/
theorem refusal_eq_insufficientFunds {t : String × Nat}
    (h : refusal b src dst t = some (.insufficientFunds owner denom available required)) :
    owner = src ∧ denom = t.1 ∧ available = b.balance src t.1 ∧ required = t.2 ∧
      (b.balance src t.1).val < t.2 := by
  unfold refusal at h
  simp only at h
  split at h
  next hless =>
    cases h
    exact ⟨rfl, rfl, rfl, rfl, hless⟩
  next =>
    split at h
    next => cases h
    next => cases h

/-- **A refusal for missing funds**, in whatever order the totals are looked at, names the sender
and a denomination that it lacks, with what it holds of it and what there is of it among the
coins. -/
theorem refusalInOrder_eq_insufficientFunds {ts : List (String × Nat)}
    (hperm : ts.Perm (totals coins).toList)
    (h : b.refusalInOrder src dst ts =
      some (.insufficientFunds owner denom available required)) :
    owner = src ∧ available = b.balance src denom ∧ required = amountOf coins denom ∧
      b.Lacks src coins denom := by
  rcases Option.or_eq_some_iff.1 h with hfirst | ⟨-, hsecond⟩
  · obtain ⟨t, -, ht⟩ := List.exists_of_findSome?_eq_some hfirst
    rw [totalRefusal] at ht
    split at ht
    next => cases ht
    next => cases ht
  · obtain ⟨t, hmem, ht⟩ := List.exists_of_findSome?_eq_some hsecond
    obtain ⟨rfl, rfl, rfl, rfl, hless⟩ := refusal_eq_insufficientFunds ht
    have hamount := eq_amountOf_of_mem (hperm.mem_iff.1 hmem)
    rw [hamount] at hless
    exact ⟨rfl, rfl, hamount, hless⟩

/-- A transfer that is refused for missing funds names a denomination that the sender lacks. -/
theorem send_eq_insufficientFunds
    (h : b.send src dst coins = .error (.insufficientFunds owner denom available required)) :
    owner = src ∧ available = b.balance src denom ∧ required = amountOf coins denom ∧
      b.Lacks src coins denom := by
  rw [send] at h
  split at h
  next e hrefused =>
    cases h
    exact refusalInOrder_eq_insufficientFunds (List.Perm.refl _) hrefused
  next => cases h

end Bank

/-- The amount of a denomination in the coins of a pool: that of each token which it is. -/
theorem Pool.amountOf_coins (p : Pool) (amount0 amount1 : Amount) (denom : String) :
    Bank.amountOf (p.coins amount0 amount1) denom =
      (if p.token0 = denom then amount0.toNat else 0) +
        (if p.token1 = denom then amount1.toNat else 0) := by
  rw [coins, Bank.amountOf_filter, Bank.amountOf_cons, Bank.amountOf_cons, Bank.amountOf_nil,
    Nat.add_zero]

end RangeLedger
