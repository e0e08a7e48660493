import DoubleEntry.Proofs.Pairing

/-! # What values depend on

The commodity that a transaction is balanced in depends on accounts alone, and what a split is worth in
it on its account, amount and price. Ledgers with the `SameHoldings` agree on the one, and ledgers with
the `SameValues` on both. A commodity that all accounts share can express every split.
-/

namespace DoubleEntry

/-- What an account can be valued in. -/
def Account.commodities (account : Account) : Commodity × Option Commodity :=
  (account.currency, account.security)

/-- What gives a split its worth. -/
def Split.terms {α : Type} (split : Split α) : Option AccountId × α × α :=
  (split.account, split.amount, split.price)

namespace Ledger

variable {α J : Type} {ledger other last : Ledger α J}

/-- Ledgers in which the same splits are in the same transactions and in accounts of the same
commodities. -/
structure SameHoldings (ledger other : Ledger α J) : Prop where
  enforces : other.enforces = ledger.enforces
  splits : ∀ id, (other.split? id).map (·.account) = (ledger.split? id).map (·.account)
  lists : ∀ id, (other.transaction? id).map (·.splits) = (ledger.transaction? id).map (·.splits)
  accounts : ∀ id, (other.account? id).map Account.commodities =
    (ledger.account? id).map Account.commodities

/-- Ledgers in which, besides, splits have the same amounts and prices. -/
structure SameValues (ledger other : Ledger α J) : Prop extends SameHoldings ledger other where
  terms : ∀ id, (other.split? id).map Split.terms = (ledger.split? id).map Split.terms

theorem SameHoldings.trans (first : ledger.SameHoldings other) (second : other.SameHoldings last) :
    ledger.SameHoldings last where
  enforces := second.enforces.trans first.enforces
  splits id := (second.splits id).trans (first.splits id)
  lists id := (second.lists id).trans (first.lists id)
  accounts id := (second.accounts id).trans (first.accounts id)

theorem SameHoldings.symm (same : ledger.SameHoldings other) : other.SameHoldings ledger where
  enforces := same.enforces.symm
  splits id := (same.splits id).symm
  lists id := (same.lists id).symm
  accounts id := (same.accounts id).symm

theorem SameValues.symm (same : ledger.SameValues other) : other.SameValues ledger :=
  ⟨same.toSameHoldings.symm, fun id => (same.terms id).symm⟩

theorem SameValues.refl (ledger : Ledger α J) : ledger.SameValues ledger :=
  ⟨⟨rfl, fun _ => rfl, fun _ => rfl, fun _ => rfl⟩, fun _ => rfl⟩

theorem SameValues.trans (first : ledger.SameValues other) (second : other.SameValues last) :
    ledger.SameValues last where
  toSameHoldings := first.toSameHoldings.trans second.toSameHoldings
  terms id := (second.terms id).trans (first.terms id)

/-- What counts of a ledger for values are its entries. -/
theorem sameValues_of_entries (settings : other.settings = ledger.settings)
    (splits : other.splits = ledger.splits) (transactions : other.transactions = ledger.transactions)
    (accounts : other.accounts = ledger.accounts) : ledger.SameValues other where
  enforces := by rw [enforces, enforces, settings]
  splits id := by rw [split?, split?, splits]
  lists id := by rw [transaction?, transaction?, transactions]
  accounts id := by rw [account?, account?, accounts]
  terms id := by rw [split?, split?, splits]

theorem Alike.sameValues [Scalar α] (alike : ledger.Alike other) : ledger.SameValues other where
  enforces := alike.enforces
  splits := alike.map_split? (·.account) fun _ => rfl
  lists id := by rw [transaction?, transaction?, alike.transactions]
  accounts := alike.map_account? Account.commodities fun _ => rfl
  terms := alike.map_split? Split.terms fun _ => rfl

theorem registered_sameValues (ledger : Ledger α J) (account : AccountId) (split : SplitId) :
    ledger.SameValues (ledger.registered account split) := by
  refine ⟨⟨rfl, fun _ => rfl, fun _ => rfl, ?_⟩, fun _ => rfl⟩
  exact Table.map_get?_modify ledger.accounts account _ Account.commodities fun _ => rfl

theorem enrolled_sameValues [Scalar α] (ledger : Ledger α J) (split : SplitId)
    (account : Option AccountId) : ledger.SameValues (ledger.enrolled split account) := by
  cases account with
  | none => exact .refl ledger
  | some account =>
    exact (registered_sameValues ledger account split).trans (recompute_alike _ account).sameValues

section NewAmounts

variable {target : SplitId} {amount : α} {amount? : Option α}

theorem split?_withAmount_of_ne {entry : SplitId} (different : entry ≠ target) :
    (ledger.withAmount target amount?).split? entry = ledger.split? entry := by
  cases amount? with
  | none => rfl
  | some amount => rw [withAmount, split?_modifySplit, if_neg different]

theorem split?_withAmount {split : Split α} (found : ledger.split? target = some split) :
    (ledger.withAmount target (some amount)).split? target = some { split with amount } := by
  rw [withAmount, split?_modifySplit, if_pos rfl, found, Option.map_some]

theorem withAmount_sameHoldings : ledger.SameHoldings (ledger.withAmount target amount?) := by
  cases amount? with
  | none => exact (SameValues.refl ledger).toSameHoldings
  | some amount =>
    refine ⟨rfl, ?_, fun _ => rfl, fun _ => rfl⟩
    exact Table.map_get?_modify ledger.splits target _ (·.account) fun _ => rfl

theorem absorbed_sameHoldings [Scalar α] :
    ledger.SameHoldings (ledger.absorbed target amount?) :=
  withAmount_sameHoldings.trans absorbed_alike.sameValues.toSameHoldings

end NewAmounts

/-- A split that is there is there in the other ledger, too. -/
theorem SameHoldings.split (same : ledger.SameHoldings other) {id : SplitId} {split : Split α}
    (found : ledger.split? id = some split) :
    ∃ after, other.split? id = some after ∧ after.account = split.account := by
  have kept := same.splits id
  rw [found, Option.map_some] at kept
  exact Option.map_eq_some_iff.mp kept

theorem SameHoldings.transaction (same : ledger.SameHoldings other) {id : TransactionId}
    {transaction : Transaction} (found : ledger.transaction? id = some transaction) :
    ∃ after, other.transaction? id = some after ∧ after.splits = transaction.splits := by
  have kept := same.lists id
  rw [found, Option.map_some] at kept
  exact Option.map_eq_some_iff.mp kept

theorem SameHoldings.splitsOf (same : ledger.SameHoldings other) {id : TransactionId} :
    other.splitsOf id = ledger.splitsOf id := by
  have listed (any : Ledger α J) :
      any.splitsOf id = ((any.transaction? id).map (·.splits)).getD [] := by
    unfold Ledger.splitsOf
    cases any.transaction? id <;> rfl
  rw [listed, listed, same.lists]

theorem SameHoldings.accountOf (same : ledger.SameHoldings other) {id : SplitId}
    {split after : Split α} (within : after.account = split.account)
    {place : Option (AccountId × Account)} (found : ledger.accountOf id split = .ok place) :
    ∃ again, other.accountOf id after = .ok again ∧
      again.map (fun place => (place.1, place.2.commodities)) =
        place.map fun place => (place.1, place.2.commodities) := by
  unfold Ledger.accountOf at found ⊢
  rw [within]
  cases inside : split.account with
  | none =>
    rw [inside] at found
    cases found
    exact ⟨none, rfl, rfl⟩
  | some account =>
    rw [inside] at found
    have kept := same.accounts account
    cases held : ledger.account? account with
    | none => simp [held] at found
    | some holder =>
      simp only [held, Except.ok.injEq] at found
      subst found
      rw [held, Option.map_some] at kept
      obtain ⟨again, heldAgain, commodities⟩ := Option.map_eq_some_iff.mp kept
      exact ⟨some (account, again), by simp [heldAgain], by simp [commodities]⟩

theorem valuation_eq_of_commodities {account again : Account}
    (same : again.commodities = account.commodities) (enforced : Bool) (base : Option Commodity) :
    again.valuation enforced base = account.valuation enforced base := by
  obtain ⟨currency, security⟩ := Prod.mk.inj same
  simp only [Account.valuation, currency, security]

theorem SameHoldings.valuation (same : ledger.SameHoldings other) {id : SplitId}
    {split after : Split α} (within : after.account = split.account) {base : Option Commodity}
    {valuation : Valuation} (valued : ledger.valuation id split base = .ok valuation) :
    other.valuation id after base = .ok valuation := by
  obtain ⟨place, found, valued⟩ := bind_eq_ok_iff.mp valued
  obtain ⟨again, foundAgain, kept⟩ := same.accountOf within found
  rw [Ledger.valuation, foundAgain, ok_bind, same.enforces]
  cases place with
  | none =>
    obtain rfl : again = none := by simpa using kept
    exact valued
  | some place =>
    obtain ⟨placeAgain, rfl, keptSome⟩ := Option.map_eq_some_iff.mp kept
    dsimp only
    rw [valuation_eq_of_commodities (Prod.mk.inj keptSome).2]
    exact valued

/-- A candidate is narrowed alike, wherever it started. -/
theorem SameHoldings.narrowBy (same : ledger.SameHoldings other) (start again : AccountId × Account)
    {splits : List SplitId} {candidate final : Candidate}
    (narrowed : ledger.narrowBy start candidate splits = .ok final) :
    other.narrowBy again candidate splits = .ok final := by
  induction splits generalizing candidate with
  | nil => exact narrowed
  | cons id rest ih =>
    obtain ⟨split, isSplit, narrowed⟩ := bind_eq_ok_iff.mp narrowed
    obtain ⟨place, found, narrowed⟩ := bind_eq_ok_iff.mp narrowed
    obtain ⟨after, isAfter, within⟩ := same.split (split_eq_ok_iff.mp isSplit)
    obtain ⟨placeAgain, foundAgain, kept⟩ := same.accountOf within found
    rw [Ledger.narrowBy, split_eq_ok_iff.mpr isAfter, ok_bind, foundAgain, ok_bind]
    cases place with
    | none =>
      obtain rfl : placeAgain = none := by simpa using kept
      dsimp only at narrowed ⊢
      rw [same.enforces]
      split at narrowed
      · contradiction
      · rename_i tolerant
        rw [if_neg tolerant]
        exact ih narrowed
    | some place =>
      obtain ⟨placeAgain, rfl, keptSome⟩ := Option.map_eq_some_iff.mp kept
      obtain ⟨currency, security⟩ := Prod.mk.inj (Prod.mk.inj keptSome).2
      dsimp only at narrowed ⊢
      rw [currency, security]
      split at narrowed
      · contradiction
      · rename_i remains
        rw [if_neg remains]
        exact ih narrowed

theorem SameHoldings.commonCommodity (same : ledger.SameHoldings other) {id : TransactionId}
    {trigger : SplitId} {base : Option Commodity}
    (common : ledger.commonCommodity id trigger = .ok base) :
    other.commonCommodity id trigger = .ok base := by
  obtain ⟨transaction, isTransaction, common⟩ := bind_eq_ok_iff.mp common
  obtain ⟨split, isSplit, common⟩ := bind_eq_ok_iff.mp common
  obtain ⟨place, found, common⟩ := bind_eq_ok_iff.mp common
  obtain ⟨again, isAgain, lists⟩ := same.transaction (transaction_eq_ok_iff.mp isTransaction)
  obtain ⟨after, isAfter, within⟩ := same.split (split_eq_ok_iff.mp isSplit)
  obtain ⟨placeAgain, foundAgain, kept⟩ := same.accountOf within found
  rw [Ledger.commonCommodity, transaction_eq_ok_iff.mpr isAgain, ok_bind, split_eq_ok_iff.mpr isAfter,
    ok_bind, foundAgain, ok_bind]
  cases place with
  | none =>
    obtain rfl : placeAgain = none := by simpa using kept
    dsimp only
    rw [same.enforces]
    exact common
  | some place =>
    obtain ⟨placeAgain, rfl, keptSome⟩ := Option.map_eq_some_iff.mp kept
    obtain ⟨currency, security⟩ := Prod.mk.inj (Prod.mk.inj keptSome).2
    obtain ⟨final, narrowed, resolved⟩ := bind_eq_ok_iff.mp common
    dsimp only
    rw [currency, security, lists, same.narrowBy _ _ narrowed]
    exact resolved

/-! ## Sums -/

section Sums

variable [Scalar α] {id : TransactionId} {base : Option Commodity} {entry : SplitId} {worth : α}

/-- What a split of a transaction is worth in a commodity. -/
def worthOf (ledger : Ledger α J) (id : TransactionId) (base : Option Commodity) (entry : SplitId) :
    Except Fault α := do
  let split ← ledger.split entry
  match (← ledger.valuation entry split base).worth? split with
  | some worth => .ok worth
  | none => .error (.damaged (.cannotBeValued entry id base))

theorem addWorths_cons (sum : α) (rest : List SplitId) : ledger.addWorths id base sum (entry :: rest) =
    ledger.worthOf id base entry >>= fun worth => ledger.addWorths id base (sum + worth) rest := by
  rw [addWorths, worthOf]
  cases ledger.split entry with
  | error _ => rfl
  | ok split =>
    simp only [ok_bind]
    cases ledger.valuation entry split base with
    | error _ => rfl
    | ok valuation =>
      simp only [ok_bind]
      cases valuation.worth? split <;> rfl

theorem worthOf_eq_ok_iff : ledger.worthOf id base entry = .ok worth ↔
    ∃ split valuation, ledger.split? entry = some split ∧
      ledger.valuation entry split base = .ok valuation ∧ valuation.worth? split = some worth := by
  constructor
  · intro valued
    obtain ⟨split, isSplit, valued⟩ := bind_eq_ok_iff.mp valued
    obtain ⟨valuation, isValuation, valued⟩ := bind_eq_ok_iff.mp valued
    refine ⟨split, valuation, split_eq_ok_iff.mp isSplit, isValuation, ?_⟩
    split at valued
    · rename_i isWorth
      rw [isWorth, Except.ok.inj valued]
    · contradiction
  · rintro ⟨split, valuation, isSplit, isValuation, isWorth⟩
    rw [worthOf, split_eq_ok_iff.mpr isSplit, ok_bind, isValuation, ok_bind, isWorth]

theorem worth?_eq_of_terms {split after : Split α} (same : after.terms = split.terms)
    (valuation : Valuation) : valuation.worth? after = valuation.worth? split := by
  obtain ⟨-, same⟩ := Prod.mk.inj same
  obtain ⟨amount, price⟩ := Prod.mk.inj same
  cases valuation with
  | priced => simp only [Valuation.worth?, Split.value, amount, price]
  | shares => simp only [Valuation.worth?, amount]
  | inexpressible => rfl

/-- A split keeps its worth as long as it keeps its terms. -/
theorem SameHoldings.worthOf (same : ledger.SameHoldings other)
    (terms : (other.split? entry).map Split.terms = (ledger.split? entry).map Split.terms)
    (valued : ledger.worthOf id base entry = .ok worth) : other.worthOf id base entry = .ok worth := by
  obtain ⟨split, valuation, isSplit, isValuation, isWorth⟩ := worthOf_eq_ok_iff.mp valued
  rw [isSplit, Option.map_some] at terms
  obtain ⟨after, isAfter, kept⟩ := Option.map_eq_some_iff.mp terms
  exact worthOf_eq_ok_iff.mpr ⟨after, valuation, isAfter,
    same.valuation (Prod.mk.inj kept).1 isValuation, (worth?_eq_of_terms kept valuation).trans isWorth⟩

theorem SameHoldings.addWorths (same : ledger.SameHoldings other) {splits : List SplitId}
    {start sum : α} (terms : ∀ entry ∈ splits,
      (other.split? entry).map Split.terms = (ledger.split? entry).map Split.terms)
    (added : ledger.addWorths id base start splits = .ok sum) :
    other.addWorths id base start splits = .ok sum := by
  induction splits generalizing start with
  | nil => exact added
  | cons entry rest ih =>
    rw [addWorths_cons] at added ⊢
    obtain ⟨worth, valued, added⟩ := bind_eq_ok_iff.mp added
    rw [same.worthOf (terms entry List.mem_cons_self) valued]
    exact ih (fun later inside => terms later (List.mem_cons_of_mem entry inside)) added

/-- A sum stays the same if the splits that it is over keep their terms. -/
theorem SameHoldings.transactionValue (same : ledger.SameHoldings other) {skip : Option SplitId}
    {sum : α} (terms : ∀ entry, skip ≠ some entry →
      (other.split? entry).map Split.terms = (ledger.split? entry).map Split.terms)
    (valued : ledger.transactionValue id skip base = .ok sum) :
    other.transactionValue id skip base = .ok sum := by
  obtain ⟨transaction, isTransaction, added⟩ := bind_eq_ok_iff.mp valued
  obtain ⟨again, isAgain, lists⟩ := same.transaction (transaction_eq_ok_iff.mp isTransaction)
  rw [Ledger.transactionValue, transaction_eq_ok_iff.mpr isAgain, ok_bind, lists]
  refine same.addWorths (fun entry inside => terms entry ?_) added
  simpa using (List.mem_filter.mp inside).2

theorem SameValues.transactionValue (same : ledger.SameValues other) {skip : Option SplitId} {sum : α}
    (valued : ledger.transactionValue id skip base = .ok sum) :
    other.transactionValue id skip base = .ok sum :=
  same.toSameHoldings.transactionValue (fun entry _ => same.terms entry) valued

theorem SameValues.imbalance (same : ledger.SameValues other) {sum : α}
    (valued : ledger.imbalance id = .ok sum) : other.imbalance id = .ok sum := by
  obtain ⟨transaction, isTransaction, valued⟩ := bind_eq_ok_iff.mp valued
  obtain ⟨again, isAgain, lists⟩ := same.transaction (transaction_eq_ok_iff.mp isTransaction)
  rw [Ledger.imbalance, transaction_eq_ok_iff.mpr isAgain, ok_bind, Transaction.source?, lists]
  rw [Transaction.source?] at valued
  cases first : transaction.splits.head? with
  | none =>
    rw [first] at valued
    exact valued
  | some source =>
    rw [first] at valued
    obtain ⟨common, isCommon, valued⟩ := bind_eq_ok_iff.mp valued
    dsimp only
    rw [same.commonCommodity isCommon]
    exact same.transactionValue valued

end Sums

end Ledger

end DoubleEntry
