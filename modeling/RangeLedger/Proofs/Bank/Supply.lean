import RangeLedger.Proofs.Bank.Transfers
import RangeLedger.Proofs.Storage.Totals

/-!
# The supply of a denomination

What all accounts together hold of a denomination is its supply. A transfer is checked before it is
made, and then moves the totals of its coins one after another, without a further look at the
balances. The checks were made on the balances before the first move, but as the totals are of
different denominations, each of them finds the balances of its own as they were checked. So no
balance leaves its word on the way, in whatever order the totals are taken (`Bank.MovesExactly`),
and what leaves the sender arrives at the recipient.

The supply is therefore changed by mintings alone, and after any run it is what was minted.

## Main results

* `Bank.supply_eq_finsum`: the supply is the sum of the balances of all accounts.
* `Bank.movesExactly_of_perm`: totals move without leaving their words, in any order.
* `Bank.supply_mint`, `Bank.supply_send`: what minting and sending do to the supply.
* `Bank.supply_after`: the supply after a run.
* `Bank.transfers_exact`: when a transfer is made, what it does, and the supply after a run.
-/

namespace RangeLedger

namespace Bank

variable {b b' : Bank} {src dst : Address} {coins : List Coin}

/-! ### The sum of all balances -/

/-- What all accounts together hold of a denomination. -/
def supply (b : Bank) (denom : String) : Int :=
  b.balances.entries.sum fun entry => if entry.1.denom = denom then entry.2.val else 0

/-- An entry is the balance of its owner in its denomination. -/
theorem balance_of_mem {entry : Holding × Amount} (h : entry ∈ b.balances.toList) :
    b.balance entry.1.owner entry.1.denom = entry.2 := by
  rw [balance, Map.getD, Map.get?_eq_some_iff_mem.2 h, Option.getD_some]

/-- The accounts with an entry for a denomination. -/
def holders (b : Bank) (denom : String) : List Address :=
  (b.balances.toList.filter fun entry => decide (entry.1.denom = denom)).map fun entry =>
    entry.1.owner

/-- No account has two entries for a denomination. -/
theorem nodup_holders (b : Bank) (denom : String) : (b.holders denom).Nodup := by
  rw [holders, List.Nodup, List.pairwise_map]
  refine ((Table.pairwise_ne b.balances.entries).filter _).imp_of_mem ?_
  intro entry entry' hentry hentry' hne howner
  have hdenom : entry.1.denom = denom := of_decide_eq_true (List.mem_filter.1 hentry).2
  have hdenom' : entry'.1.denom = denom := of_decide_eq_true (List.mem_filter.1 hentry').2
  exact hne (Holding.ext howner (hdenom.trans hdenom'.symm))

/-- The supply is held by the accounts with an entry. -/
theorem supply_eq_sum (b : Bank) (denom : String) :
    b.supply denom = ((b.holders denom).map fun owner => (b.balance owner denom).val).sum := by
  have hsplit : b.supply denom =
      ((b.balances.toList.filter fun entry => decide (entry.1.denom = denom)).map fun entry =>
        entry.2.val).sum := by
    refine (List.sum_map_ite _ _ _ b.balances.toList).trans ?_
    rw [List.map_const', List.sum_replicate, smul_zero, add_zero]
  rw [hsplit, holders, List.map_map]
  refine congrArg List.sum (List.map_congr_left fun entry hentry => ?_)
  obtain ⟨hmem, hdenom⟩ := List.mem_filter.1 hentry
  rw [Function.comp, ← of_decide_eq_true hdenom, balance_of_mem hmem]

/-- An account that holds something has an entry. -/
theorem mem_holders {owner : Address} {denom : String} (h : (b.balance owner denom).val ≠ 0) :
    owner ∈ b.holders denom := by
  rw [balance, Map.getD] at h
  cases hfound : b.balances.get? ⟨owner, denom⟩ with
  | none =>
    rw [hfound] at h
    exact absurd rfl h
  | some n =>
    have hmem := Map.get?_eq_some_iff_mem.1 hfound
    exact List.mem_map.2 ⟨_, List.mem_filter.2 ⟨hmem, decide_eq_true rfl⟩, rfl⟩

/-- **The supply is the sum of the balances of all accounts.** -/
theorem supply_eq_finsum (b : Bank) (denom : String) :
    b.supply denom = ∑ᶠ owner, (b.balance owner denom).val := by
  rw [finsum_eq_sum_of_support_subset (s := (b.holders denom).toFinset) _ fun owner howner =>
      List.mem_toFinset.2 (mem_holders howner),
    List.sum_toFinset _ (b.nodup_holders denom), supply_eq_sum]

/-! ### Credits, mintings and moves -/

/-- A credit that leaves its balance in the word adds to the supply of its denomination. -/
theorem supply_credit {owner : Address} {denom : String} {n : Int}
    (h : 0 ≤ (b.balance owner denom).val + n) (h' : (b.balance owner denom).val + n < Amount.limit)
    (denom' : String) :
    (b.credit owner denom n).supply denom' =
      b.supply denom' + if denom = denom' then n else 0 := by
  have hrow : Table.share
      (fun entry : Holding × Amount => if entry.1.denom = denom' then entry.2.val else 0)
      (b.balances.entries.get? ⟨owner, denom⟩) =
        if denom = denom' then (b.balance owner denom).val else 0 := by
    rw [balance, Map.getD, Map.get?]
    cases hfound : b.balances.entries.get? ⟨owner, denom⟩ with
    | none => exact (ite_self _).symm
    | some entry =>
      have hkey : entry.1 = ⟨owner, denom⟩ := Table.key_of_get? hfound
      rw [Table.share_some, hkey]
      rfl
  rw [supply, credit, setBalance, Map.insert, Table.sum_insert, hrow, ← supply]
  rw [Amount.limit] at h'
  simp only [Bounded.clamp]
  split_ifs <;> omega

/-- **A minting** adds its coin to the supply. -/
theorem supply_mint {owner : Address} {coin : Coin} (h : b.mint owner coin = .ok b')
    (denom : String) :
    b'.supply denom = b.supply denom + if coin.denom = denom then coin.amount.val else 0 := by
  rw [mint] at h
  split at h
  next hlt =>
    cases h
    have hheld := (b.balance owner coin.denom).lo_le
    have hcoin := coin.amount.lo_le
    exact supply_credit (by omega) hlt denom
  next => cases h

/-- A total that is not refused keeps both balances in their words while it is moved. -/
theorem words_of_refusal (hne : src ≠ dst) {t : String × Nat} (h : refusal b src dst t = none) :
    (t.2 : Int) ≤ (b.balance src t.1).val ∧
      ((b.credit src t.1 (-t.2)).balance dst t.1).val + t.2 ≤ 2 ^ 128 - 1 := by
  obtain ⟨hfunds, hroom⟩ := refusal_eq_none_iff.1 h
  have hroom := hroom hne
  have hle := (b.balance src t.1).le_hi
  refine ⟨hfunds, ?_⟩
  rw [balance_credit (by omega) (by rw [Amount.limit]; omega), if_neg fun h => hne h.1]
  rw [Amount.limit] at hroom
  omega

/-- A total that is not refused stays in the supply. -/
theorem supply_move (hne : src ≠ dst) {t : String × Nat} (h : refusal b src dst t = none)
    (denom : String) : (move src dst b t).supply denom = b.supply denom := by
  obtain ⟨hfunds, hroom⟩ := words_of_refusal hne h
  have hle := (b.balance src t.1).le_hi
  have hnonneg := ((b.credit src t.1 (-t.2)).balance dst t.1).lo_le
  rw [move, supply_credit (by omega) (by rw [Amount.limit]; omega),
    supply_credit (by omega) (by rw [Amount.limit]; omega)]
  split_ifs <;> omega

/-! ### Moving all totals -/

/-- No balance leaves its word while the totals are moved one after another: each is held by the
sender when it is taken, and the recipient can take it when it arrives. -/
def MovesExactly (src dst : Address) : Bank → List (String × Nat) → Prop
  | _, [] => True
  | b, t :: rest => (t.2 : Int) ≤ (b.balance src t.1).val ∧
      ((b.credit src t.1 (-t.2)).balance dst t.1).val + t.2 ≤ 2 ^ 128 - 1 ∧
        MovesExactly src dst (move src dst b t) rest

/-- Totals that were checked before the first is moved are still fit to be moved behind it. -/
theorem refusal_move_of_mem {t : String × Nat} {rest : List (String × Nat)}
    (hdistinct : (t :: rest).Pairwise fun t t' => t.1 ≠ t'.1)
    (hchecked : ∀ t' ∈ t :: rest, refusal b src dst t' = none) :
    ∀ t' ∈ rest, refusal (move src dst b t) src dst t' = none := by
  intro t' ht'
  have hother := (List.pairwise_cons.1 hdistinct).1 t' ht'
  rw [refusal_congr fun owner => balance_move_of_ne b hother owner]
  exact hchecked t' (List.mem_cons_of_mem t ht')

/-- Checked totals of different denominations move without leaving their words. -/
theorem movesExactly (hne : src ≠ dst) {ts : List (String × Nat)}
    (hdistinct : ts.Pairwise fun t t' => t.1 ≠ t'.1)
    (hchecked : ∀ t ∈ ts, refusal b src dst t = none) : MovesExactly src dst b ts := by
  induction ts generalizing b with
  | nil => trivial
  | cons t rest ih =>
    obtain ⟨hfunds, hroom⟩ := words_of_refusal hne (hchecked t List.mem_cons_self)
    exact ⟨hfunds, hroom, ih (List.pairwise_cons.1 hdistinct).2
      (refusal_move_of_mem hdistinct hchecked)⟩

/-- Checked totals of different denominations stay in the supply. -/
theorem supply_foldl_move (hne : src ≠ dst) {ts : List (String × Nat)}
    (hdistinct : ts.Pairwise fun t t' => t.1 ≠ t'.1)
    (hchecked : ∀ t ∈ ts, refusal b src dst t = none) (denom : String) :
    (ts.foldl (move src dst) b).supply denom = b.supply denom := by
  induction ts generalizing b with
  | nil => rfl
  | cons t rest ih =>
    rw [List.foldl_cons, ih (List.pairwise_cons.1 hdistinct).2
      (refusal_move_of_mem hdistinct hchecked),
      supply_move hne (hchecked t List.mem_cons_self)]

/-- **A transfer** leaves the supply. -/
theorem supply_send (h : b.send src dst coins = .ok b') (denom : String) :
    b'.supply denom = b.supply denom := by
  obtain ⟨hchecked, hmoved⟩ := send_eq_ok_iff.1 h
  split at hmoved
  next => rw [← hmoved]
  next hne =>
    rw [← hmoved]
    exact supply_foldl_move hne (pairwise_totals coins) (fun t ht => (hchecked t ht).2) denom

/-- **The totals of a transfer move in any order** without leaving their words, and leave the same
balances. -/
theorem movesExactly_of_perm (hne : src ≠ dst) (h : b.send src dst coins = .ok b')
    {ts : List (String × Nat)} (hperm : ts.Perm (totals coins).toList) :
    MovesExactly src dst b ts ∧
      ∀ owner denom, (ts.foldl (move src dst) b).balance owner denom = b'.balance owner denom := by
  obtain ⟨hchecked, -⟩ := send_eq_ok_iff.1 h
  have hdistinct : ts.Pairwise fun t t' => t.1 ≠ t'.1 :=
    (hperm.symm.pairwise (pairwise_totals coins)) fun h => h.symm
  have hchecked : ∀ t ∈ ts, refusal b src dst t = none := fun t ht =>
    (hchecked t (hperm.mem_iff.1 ht)).2
  refine ⟨movesExactly hne hdistinct hchecked, fun owner denom => Bounded.ext ?_⟩
  rw [balance_send h]
  by_cases hsome : ∃ t ∈ ts, t.1 = denom
  · obtain ⟨t, ht, rfl⟩ := hsome
    rw [balance_foldl_move hne hdistinct hchecked ht, eq_amountOf_of_mem (hperm.mem_iff.1 ht)]
  · have hnone : ∀ t ∈ ts, t.1 ≠ denom := fun t ht heq => hsome ⟨t, ht, heq⟩
    rw [balance_foldl_move_of_ne hnone,
      amountOf_eq_zero fun t ht => hnone t (hperm.mem_iff.2 ht)]
    simp

/-! ### Runs -/

/-- What a bank is asked to do. -/
inductive Instruction where
  | mint (owner : Address) (coin : Coin)
  | send (src dst : Address) (coins : List Coin)

/-- The bank after an instruction, or why it refuses. -/
def perform (b : Bank) : Instruction → Except BankError Bank
  | .mint owner coin => b.mint owner coin
  | .send src dst coins => b.send src dst coins

/-- The bank that is left by an instruction, performed or refused. -/
def next (b : Bank) (i : Instruction) : Bank :=
  match b.perform i with
  | .ok b' => b'
  | .error _ => b

/-- The bank after a run. -/
def after (b : Bank) (is : List Instruction) : Bank := is.foldl next b

/-- The amount of a denomination that an instruction creates, which is none if it is refused. -/
def mintedBy (b : Bank) (denom : String) : Instruction → Int
  | .mint owner coin =>
    match b.mint owner coin with
    | .ok _ => if coin.denom = denom then coin.amount.val else 0
    | .error _ => 0
  | .send .. => 0

/-- The amount of a denomination that is minted during a run. -/
def minted (denom : String) : Bank → List Instruction → Int
  | _, [] => 0
  | b, i :: rest => b.mintedBy denom i + minted denom (b.next i) rest

/-- A refusal leaves the bank. -/
theorem next_of_error {i : Instruction} {e : BankError} (h : b.perform i = .error e) :
    b.next i = b := by
  rw [next, h]

/-- An instruction changes the supply by what it creates. -/
theorem supply_next (b : Bank) (i : Instruction) (denom : String) :
    (b.next i).supply denom = b.supply denom + b.mintedBy denom i := by
  cases i with
  | mint owner coin =>
    rw [next, perform, mintedBy]
    cases hmint : b.mint owner coin with
    | error e => exact (Int.add_zero _).symm
    | ok b' => exact supply_mint hmint denom
  | send src dst coins =>
    rw [next, perform, mintedBy, Int.add_zero]
    cases hsend : b.send src dst coins with
    | error e => rfl
    | ok b' => exact supply_send hsend denom

/-- **The supply after a run** is the one before it and what was minted. -/
theorem supply_after (b : Bank) (is : List Instruction) (denom : String) :
    (b.after is).supply denom = b.supply denom + minted denom b is := by
  induction is generalizing b with
  | nil => exact (Int.add_zero _).symm
  | cons i rest ih =>
    rw [after, List.foldl_cons, ← after, ih, supply_next, minted, Int.add_assoc]

/-- Where nobody holds anything there is no supply. -/
@[simp] theorem supply_empty (denom : String) : empty.supply denom = 0 := rfl

/-- **Transfers are exact, atomic and conserve the supply.** A transfer is made if and only if the
sender holds every amount and another recipient has room for it. Then it moves exactly the amounts,
and no balance leaves its word on the way, in whatever order the totals are moved; a refused one
changes nothing. So all accounts together hold what was minted. -/
theorem transfers_exact (b : Bank) :
    (∀ src dst coins,
      ((∃ b', b.send src dst coins = .ok b') ↔
        ∀ denom, (amountOf coins denom : Int) ≤ (b.balance src denom).val ∧
          (src ≠ dst → (b.balance dst denom).val + amountOf coins denom ≤ 2 ^ 128 - 1)) ∧
      (∀ b', b.send src dst coins = .ok b' →
        (∀ owner denom, (b'.balance owner denom).val = (b.balance owner denom).val +
          (if dst = owner then (amountOf coins denom : Int) else 0) -
          (if src = owner then (amountOf coins denom : Int) else 0)) ∧
        (src = dst → b' = b) ∧
        (src ≠ dst → ∀ ts : List (String × Nat), ts.Perm (totals coins).toList →
          MovesExactly src dst b ts ∧ ∀ owner denom,
            (ts.foldl (move src dst) b).balance owner denom = b'.balance owner denom)) ∧
      ∀ e, b.send src dst coins = .error e → b.next (.send src dst coins) = b) ∧
    (∀ is denom, ∑ᶠ owner, ((b.after is).balance owner denom).val =
      (∑ᶠ owner, (b.balance owner denom).val) + minted denom b is) ∧
    ∀ is denom, ∑ᶠ owner, ((empty.after is).balance owner denom).val = minted denom empty is := by
  refine ⟨fun src dst coins => ⟨?_, fun b' hsend => ⟨balance_send hsend, fun heq => ?_,
    fun hne ts hperm => movesExactly_of_perm hne hsend hperm⟩, fun e hsend => next_of_error hsend⟩,
    fun is denom => ?_, fun is denom => ?_⟩
  · have hlimit : (Amount.limit : Int) = 2 ^ 128 := rfl
    simp only [exists_send_iff, hlimit, Int.le_sub_one_iff]
  · obtain ⟨-, hmoved⟩ := send_eq_ok_iff.1 hsend
    rw [← hmoved, if_pos heq]
  · rw [← supply_eq_finsum, ← supply_eq_finsum, supply_after]
  · rw [← supply_eq_finsum, supply_after, supply_empty, Int.zero_add]

/-- Coins of one denomination count together: four and five of ten are sent, six and six are
refused. -/
theorem transfers_exact_sample :
    let eth (n : Int) : Coin := ⟨"eth", Bounded.clamp Amount.zero_le_max n⟩
    let src : Address := ⟨1, by decide, by decide⟩
    let dst : Address := ⟨2, by decide, by decide⟩
    let b := empty.next (.mint src (eth 10))
    (∃ b', b.send src dst [eth 4, eth 5] = .ok b' ∧
      (b'.balance src "eth").val = 1 ∧ (b'.balance dst "eth").val = 9) ∧
    (∃ e, b.send src dst [eth 6, eth 6] = .error e) ∧
      b.next (.send src dst [eth 6, eth 6]) = b := by
  intro eth src dst b
  have hsent : (b.send src dst [eth 4, eth 5]).toOption.isSome = true := by decide +kernel
  obtain ⟨b', hb'⟩ : ∃ b', b.send src dst [eth 4, eth 5] = .ok b' := by
    cases h : b.send src dst [eth 4, eth 5] with
    | error e =>
      rw [h] at hsent
      cases hsent
    | ok b' => exact ⟨b', rfl⟩
  have hrefused : b.send src dst [eth 6, eth 6] =
      .error (.insufficientFunds src "eth" (b.balance src "eth") 12) := by decide +kernel
  have hbalance := (((transfers_exact b).1 src dst [eth 4, eth 5]).2.1 b' hb').1
  refine ⟨⟨b', hb', ?_, ?_⟩, ⟨_, hrefused⟩,
    ((transfers_exact b).1 src dst [eth 6, eth 6]).2.2 _ hrefused⟩
  · rw [hbalance]
    decide +kernel
  · rw [hbalance]
    decide +kernel

end Bank

end RangeLedger
