import DoubleEntry.Proofs.Commit
import DoubleEntry.Proofs.Locality

/-! # Accepted edits

An edit balances its transaction in the commodity that is found from the edited split; whether the
transaction counts as balanced is asked in the commodity that is found from its source. The two are the
same unless all accounts have two commodities in common and those of the edited split and of the source
prefer different ones. They may also differ where only one of the two splits has an account, which is
possible without enforcement.
-/

namespace DoubleEntry

open DoubleEntry.Action

namespace Ledger

/-- The account that a split is in, if the book has it. -/
def holder? {α J : Type} (ledger : Ledger α J) (id : SplitId) : Option Account :=
  (ledger.accountOf? id).bind ledger.account?

/-- The source of a transaction decides on its commodity as the edited split does. -/
structure Concordant {α J : Type} (ledger : Ledger α J) (owner : TransactionId)
    (edited source : SplitId) : Prop where
  /-- Their accounts have one currency, or some account does not have both currencies. -/
  decided : ∀ one other, ledger.holder? edited = some one → ledger.holder? source = some other →
    one.currency = other.currency ∨ ∃ entry ∈ ledger.splitsOf owner, ∃ holder,
      ledger.holder? entry = some holder ∧ ¬ (holder.Has one.currency ∧ holder.Has other.currency)
  /-- If only one of the two has an account, all accounts have one currency. -/
  uniform : (ledger.holder? edited).isSome ≠ (ledger.holder? source).isSome →
    ∃ currency, ∀ entry ∈ ledger.splitsOf owner, ∀ holder, ledger.holder? entry = some holder →
      holder.currency = currency

section Sources

variable {α J : Type} {ledger : Ledger α J} {owner : TransactionId} {transaction : Transaction}
  {edited source : SplitId} {split : Split α} {base : Option Commodity}

theorem holder?_of_accountOf {place : Option (AccountId × Account)}
    (isSplit : ledger.split? edited = some split) (found : ledger.accountOf edited split = .ok place) :
    ledger.holder? edited = place.map Prod.snd := by
  rw [holder?, accountOf?_eq isSplit]
  unfold accountOf at found
  cases within : split.account with
  | none =>
    rw [within] at found
    cases found
    rfl
  | some account =>
    cases held : ledger.account? account with
    | none => simp [within, held] at found
    | some holder =>
      simp only [within, held, Except.ok.injEq] at found
      subst found
      simp [held]

/-- A split from which a commodity is found is in no account, without enforcement, or in an account of
the book. -/
theorem place_of_commonCommodity (common : ledger.commonCommodity owner edited = .ok base) :
    ∃ split place, ledger.split? edited = some split ∧ ledger.accountOf edited split = .ok place ∧
      (place = none → base = none ∧ ledger.enforces = false) := by
  obtain ⟨transaction, -, common⟩ := bind_eq_ok_iff.mp common
  obtain ⟨split, isSplit, common⟩ := bind_eq_ok_iff.mp common
  obtain ⟨place, found, common⟩ := bind_eq_ok_iff.mp common
  refine ⟨split, place, split_eq_ok_iff.mp isSplit, found, ?_⟩
  rintro rfl
  dsimp only at common
  split at common
  · contradiction
  · rename_i tolerant
    exact ⟨(Except.ok.inj common).symm, by simpa using tolerant⟩

/-- Without an account a split decides for face value. -/
theorem commonCommodity_of_detached (isOwner : ledger.transaction? owner = some transaction)
    (isSplit : ledger.split? source = some split) (found : ledger.accountOf source split = .ok none)
    (tolerant : ledger.enforces = false) : ledger.commonCommodity owner source = .ok none := by
  rw [commonCommodity, transaction_eq_ok_iff.mpr isOwner, ok_bind, split_eq_ok_iff.mpr isSplit, ok_bind,
    found, ok_bind]
  dsimp only
  rw [if_neg (by simp [tolerant])]

theorem accepts_of_found {commodity : Commodity}
    (isOwner : ledger.transaction? owner = some transaction)
    (common : ledger.commonCommodity owner edited = .ok (some commodity)) :
    ∀ entry ∈ transaction.splits, ledger.Accepts entry commodity := by
  rcases accepts_of_commonCommodity isOwner common with ⟨absent, -⟩ | ⟨_, same, accepts⟩
  · contradiction
  · exact Option.some.inj same ▸ accepts

theorem Accepts.has {commodity : Commodity} {account : AccountId} {holder : Account}
    (accepts : ledger.Accepts edited commodity) (isSplit : ledger.split? edited = some split)
    (within : ledger.accountOf edited split = .ok (some (account, holder))) : holder.Has commodity := by
  obtain ⟨again, isAgain, found⟩ := accepts
  obtain rfl : split = again := Option.some.inj (isSplit.symm.trans isAgain)
  rw [within] at found
  rcases found with ⟨absent, -⟩ | ⟨_, _, same, has⟩
  · cases absent
  · cases same
    exact has

/-- An account decides for its currency, unless some split does not accept it. -/
theorem currency_of_found {commodity alternative : Commodity} {account : AccountId} {holder : Account}
    (isOwner : ledger.transaction? owner = some transaction)
    (isSplit : ledger.split? edited = some split)
    (within : ledger.accountOf edited split = .ok (some (account, holder)))
    (listed : edited ∈ transaction.splits)
    (common : ledger.commonCommodity owner edited = .ok (some commodity))
    (accepts : ∀ entry ∈ transaction.splits, ledger.Accepts entry alternative)
    (different : alternative ≠ commodity) : holder.currency = commodity := by
  have has : holder.Has commodity := (accepts_of_found isOwner common edited listed).has isSplit within
  have hasToo : holder.Has alternative := (accepts edited listed).has isSplit within
  obtain ⟨base, finds, prefers⟩ := commonCommodity_of_accepts isOwner isSplit within hasToo accepts
  obtain rfl : some commodity = base := Except.ok.inj (common.symm.trans finds)
  rcases has with currency | security
  · exact currency
  · rcases hasToo with currency | securityToo
    · exact absurd (Option.some.inj (prefers currency)).symm different
    · exact absurd (Option.some.inj (securityToo.symm.trans security)) different

/-- Two splits in accounts that do not prefer different commodities find the same one. -/
theorem commonCommodity_agrees {entry : Split α} {account another : AccountId} {one other : Account}
    (isOwner : ledger.transaction? owner = some transaction)
    (listed : edited ∈ transaction.splits) (first : source ∈ transaction.splits)
    (isSplit : ledger.split? edited = some split)
    (within : ledger.accountOf edited split = .ok (some (account, one)))
    (isSource : ledger.split? source = some entry)
    (holds : ledger.accountOf source entry = .ok (some (another, other)))
    (concordant : ledger.Concordant owner edited source)
    (common : ledger.commonCommodity owner edited = .ok base) :
    ledger.commonCommodity owner source = .ok base := by
  obtain ⟨commodity, rfl, -⟩ := has_of_commonCommodity isSplit within common
  have accepts := accepts_of_found isOwner common
  obtain ⟨base, finds, -⟩ := commonCommodity_of_accepts isOwner isSource holds
    ((accepts source first).has isSource holds) accepts
  obtain ⟨alternative, rfl, -⟩ := has_of_commonCommodity isSource holds finds
  have acceptsToo := accepts_of_found isOwner finds
  by_cases same : alternative = commodity
  · rw [finds, same]
  -- All splits accept both commodities, so each of the two accounts decides for its currency.
  have currency := currency_of_found isOwner isSplit within listed common acceptsToo same
  have currencyToo := currency_of_found isOwner isSource holds first finds accepts (Ne.symm same)
  rcases concordant.decided one other (holder?_of_accountOf isSplit within)
    (holder?_of_accountOf isSource holds) with equal | ⟨other, inside, holder, held, lacks⟩
  · exact absurd (currencyToo.symm.trans (equal.symm.trans currency)) same
  · rw [splitsOf_eq isOwner] at inside
    obtain ⟨member, isMember, ⟨absent, -⟩ | ⟨place, found, isIn, has⟩⟩ := accepts other inside
    · rw [holder?_of_accountOf isMember absent] at held
      contradiction
    · obtain rfl : found = holder :=
        Option.some.inj ((holder?_of_accountOf isMember isIn).symm.trans held)
      have hasToo := (acceptsToo other inside).has isMember isIn
      exact absurd ⟨currency ▸ has, currencyToo ▸ hasToo⟩ lacks

/-- Where all accounts have one currency, every split has its face value in that currency. -/
theorem valuation_of_uniform {commodity : Commodity} {place : Option (AccountId × Account)}
    (tolerant : ledger.enforces = false) (found : ledger.accountOf edited split = .ok place)
    (uniform : ∀ account holder, place = some (account, holder) → holder.currency = commodity)
    (face : base = none ∨ base = some commodity) :
    ledger.valuation edited split base = .ok .priced := by
  rw [valuation, found, ok_bind]
  rcases place with _ | ⟨account, holder⟩
  · simp [tolerant]
  · have currency := uniform account holder rfl
    rcases face with rfl | rfl <;> simp [Account.valuation, tolerant, currency]

end Sources

section Imbalance

variable {J : Type} {ledger : Ledger Rat J} {owner : TransactionId} {transaction : Transaction}
  {edited source entry : SplitId} {base other : Option Commodity} {sum : Rat}

/-- Only splits that are in accounts of the book, or in none, have a sum. -/
theorem place_of_transactionValue (isOwner : ledger.transaction? owner = some transaction)
    (valued : ledger.transactionValue owner none base = .ok sum) (inside : entry ∈ transaction.splits) :
    ∃ split place, ledger.split? entry = some split ∧ ledger.accountOf entry split = .ok place := by
  rw [transactionValue, transaction_eq_ok_iff.mpr isOwner, ok_bind] at valued
  have worth := (addWorths_eq_ok_iff.mp valued).1 entry (by simpa using inside)
  obtain ⟨split, valuation, isSplit, priced, -⟩ := worthOf_eq_ok_iff.mp worth
  obtain ⟨place, found, -⟩ := bind_eq_ok_iff.mp priced
  exact ⟨split, place, isSplit, found⟩

/-- Where all accounts have one currency, a sum at face value is the sum in that currency. -/
theorem transactionValue_of_uniform {commodity : Commodity}
    (isOwner : ledger.transaction? owner = some transaction) (tolerant : ledger.enforces = false)
    (uniform : ∀ entry ∈ transaction.splits, ∀ holder, ledger.holder? entry = some holder →
      holder.currency = commodity)
    (face : base = none ∨ base = some commodity) (faceToo : other = none ∨ other = some commodity)
    (valued : ledger.transactionValue owner none base = .ok sum) :
    ledger.transactionValue owner none other = .ok sum := by
  have worths : ∀ entry ∈ transaction.splits, ∀ worth, ledger.worthOf owner base entry = .ok worth →
      ledger.worthOf owner other entry = .ok worth := by
    intro entry inside worth valued
    obtain ⟨split, valuation, isSplit, priced, valuedAt⟩ := worthOf_eq_ok_iff.mp valued
    obtain ⟨place, found, -⟩ := bind_eq_ok_iff.mp priced
    have held := holder?_of_accountOf isSplit found
    have faces {any : Option Commodity} (face : any = none ∨ any = some commodity) :
        ledger.valuation entry split any = .ok .priced :=
      valuation_of_uniform tolerant found
        (fun account holder isIn => uniform entry inside holder (by rw [held, isIn]; rfl)) face
    obtain rfl : .priced = valuation := Except.ok.inj ((faces face).symm.trans priced)
    exact worthOf_eq_ok_iff.mpr ⟨split, .priced, isSplit, faces faceToo, valuedAt⟩
  rw [transactionValue, transaction_eq_ok_iff.mpr isOwner, ok_bind] at valued ⊢
  obtain ⟨all, total⟩ := addWorths_eq_ok_iff.mp valued
  have same : ∀ entry ∈ transaction.splits,
      ledger.worthIn owner other entry = ledger.worthIn owner base entry := fun entry inside =>
    worthIn_eq (worths entry inside _ (all entry (by simpa using inside)))
  refine addWorths_eq_ok_iff.mpr ⟨fun entry listed => ?_, ?_⟩
  · have inside := (List.mem_filter.mp listed).1
    rw [same entry inside]
    exact worths entry inside _ (all entry listed)
  · rw [← total]
    congr 2
    exact List.map_congr_left fun entry listed => same entry (List.mem_filter.mp listed).1

/-- The one currency of all accounts is what every split in an account decides for. -/
theorem commonCommodity_of_uniform {commodity : Commodity} {split : Split Rat} {account : AccountId}
    {holder : Account} (isOwner : ledger.transaction? owner = some transaction)
    (tolerant : ledger.enforces = false)
    (uniform : ∀ entry ∈ transaction.splits, ∀ holder, ledger.holder? entry = some holder →
      holder.currency = commodity)
    (listed : edited ∈ transaction.splits) (isSplit : ledger.split? edited = some split)
    (within : ledger.accountOf edited split = .ok (some (account, holder)))
    (valued : ledger.transactionValue owner none base = .ok sum) :
    ledger.commonCommodity owner edited = .ok (some commodity) := by
  have accepts : ∀ entry ∈ transaction.splits, ledger.Accepts entry commodity := by
    intro entry inside
    obtain ⟨split, place, isSplit, found⟩ := place_of_transactionValue isOwner valued inside
    refine ⟨split, isSplit, ?_⟩
    rcases place with _ | ⟨account, holder⟩
    · exact .inl ⟨found, tolerant⟩
    · exact .inr ⟨account, holder, found,
        .inl (uniform entry inside holder (holder?_of_accountOf isSplit found))⟩
  have currency := uniform edited listed holder (holder?_of_accountOf isSplit within)
  obtain ⟨base, finds, prefers⟩ :=
    commonCommodity_of_accepts isOwner isSplit within (.inl currency) accepts
  rw [finds, prefers currency]

/-- If the source decides as the edited split does, the ledger reports the sum that the edit left. -/
theorem imbalance_of_concordant (isOwner : ledger.transaction? owner = some transaction)
    (first : transaction.source? = some source) (listed : edited ∈ transaction.splits)
    (concordant : ledger.Concordant owner edited source)
    (common : ledger.commonCommodity owner edited = .ok base)
    (valued : ledger.transactionValue owner none base = .ok sum) :
    ledger.imbalance owner = .ok sum := by
  have inside : source ∈ transaction.splits := List.mem_of_mem_head? first
  obtain ⟨split, place, isSplit, within, detached⟩ := place_of_commonCommodity common
  obtain ⟨entry, another, isSource, holds⟩ := place_of_transactionValue isOwner valued inside
  have holder := holder?_of_accountOf isSplit within
  have holderToo := holder?_of_accountOf isSource holds
  rcases place with _ | ⟨account, one⟩ <;> rcases another with _ | ⟨another, other⟩
  · obtain ⟨rfl, tolerant⟩ := detached rfl
    exact imbalance_eq isOwner first (commonCommodity_of_detached isOwner isSource holds tolerant)
      valued
  · obtain ⟨rfl, tolerant⟩ := detached rfl
    obtain ⟨currency, uniform⟩ := concordant.uniform (by rw [holder, holderToo]; nofun)
    rw [splitsOf_eq isOwner] at uniform
    exact imbalance_eq isOwner first
      (commonCommodity_of_uniform isOwner tolerant uniform inside isSource holds valued)
      (transactionValue_of_uniform isOwner tolerant uniform (.inl rfl) (.inr rfl) valued)
  · obtain ⟨commodity, rfl, -⟩ := has_of_commonCommodity isSplit within common
    obtain ⟨currency, uniform⟩ := concordant.uniform (by rw [holder, holderToo]; nofun)
    rw [splitsOf_eq isOwner] at uniform
    have tolerant : ledger.enforces = false := by
      obtain ⟨again, isAgain, found⟩ := accepts_of_found isOwner common source inside
      obtain rfl : entry = again := Option.some.inj (isSource.symm.trans isAgain)
      rw [holds] at found
      rcases found with ⟨-, tolerant⟩ | ⟨_, _, absent, -⟩
      · exact tolerant
      · cases absent
    have finds := commonCommodity_of_uniform isOwner tolerant uniform listed isSplit within valued
    exact imbalance_eq isOwner first (commonCommodity_of_detached isOwner isSource holds tolerant)
      (transactionValue_of_uniform isOwner tolerant uniform
        (.inr (Except.ok.inj (common.symm.trans finds))) (.inl rfl) valued)
  · have agrees := commonCommodity_agrees isOwner listed inside isSplit within isSource holds concordant
      common
    exact imbalance_eq isOwner first agrees valued

end Imbalance

/-! ## What a rebalancing leaves -/

/-- Splits that are there stay in their accounts, and accounts put off rebalancing as they did. -/
structure KeepsPlaces {α J : Type} (ledger after : Ledger α J) : Prop where
  accountOf : ∀ id, (ledger.split? id).isSome → after.accountOf? id = ledger.accountOf? id
  defers : after.accounts.defers = ledger.accounts.defers

/-- The splits of a transaction sum to zero in the commodity that is found from one of them, and the
ledger reports so if the source decides alike. -/
structure BalancedFrom {J : Type} (ledger : Ledger Rat J) (owner : TransactionId) (edited : SplitId) :
    Prop where
  zero : ∃ base, ledger.commonCommodity owner edited = .ok base ∧
    ledger.transactionValue owner none base = .ok 0
  reported : ∀ source, (ledger.splitsOf owner).head? = some source →
    ledger.Concordant owner edited source → ledger.imbalance owner = .ok 0

section Places

variable {α J : Type} [Scalar α] {ledger after : Ledger α J} {edited : SplitId} {split : Split α}
  {owner : TransactionId} {transaction : Transaction} {base : Option Commodity}

theorem defers_absorbed {target : SplitId} {amount? : Option α} :
    (ledger.absorbed target amount?).accounts.defers = ledger.accounts.defers := by
  refine absorbed_alike.defers.trans ?_
  cases amount? <;> rfl

omit [Scalar α] in
theorem SameHoldings.accountOf? (same : ledger.SameHoldings after) (id : SplitId) :
    after.accountOf? id = ledger.accountOf? id := accountOf?_congr (same.splits id)

omit [Scalar α] in
theorem defers_registered (account : AccountId) (id : SplitId) :
    (ledger.registered account id).accounts.defers = ledger.accounts.defers := by
  funext other
  have same : ((ledger.registered account id).accounts.get? other).map (·.defers) =
      (ledger.accounts.get? other).map (·.defers) :=
    Table.map_get?_modify ledger.accounts account _ (·.defers) (by exact fun _ => rfl) other
  rw [Book.defers, Book.defers]
  cases found : ledger.accounts.get? other <;>
    cases again : (ledger.registered account id).accounts.get? other <;> simp_all

theorem Rebalanced.keepsPlaces
    (rebalanced : ledger.Rebalanced edited split owner transaction base after) :
    ledger.KeepsPlaces after := by
  cases rebalanced with
  | absorbed target amount? isTarget absorbs =>
    exact ⟨fun id _ => absorbed_sameHoldings.accountOf? id, defers_absorbed⟩
  | paired account holder amount? lone matters absorbs =>
    constructor
    · intro id live
      have different : id ≠ ledger.nextSplit := fun same => by simp [same, lone.new] at live
      rw [(enrolled_sameValues _ _ _).accountOf?, absorbed_sameHoldings.accountOf?, Ledger.accountOf?,
        Ledger.accountOf?, split?_withCounterpart different]
    · rw [enrolled, (recompute_alike _ account).defers, defers_registered, defers_absorbed,
        defers_withCounterpart]
  | rested alone idle => exact ⟨fun _ _ => rfl, rfl⟩

end Places

section Outcomes

variable {J : Type} {ledger after : Ledger Rat J} {edited : SplitId} {split : Split Rat}
  {owner : TransactionId} {transaction : Transaction} {base : Option Commodity}

theorem Rebalanced.balancedFrom (active : ledger.Active edited split owner transaction)
    (owned : ledger.Owned) (common : ledger.commonCommodity owner edited = .ok base)
    (rebalanced : ledger.Rebalanced edited split owner transaction base after)
    (several : 2 ≤ (after.splitsOf owner).length)
    (priced : ∀ entry ∈ after.splitsOf owner, after.price entry ≠ 0) :
    after.BalancedFrom owner edited := by
  have listed : edited ∈ transaction.splits :=
    (owned.mem_iff active.isOwner).mpr (parent_eq_iff.mpr ⟨split, active.isSplit, active.parent⟩)
  cases rebalanced with
  | absorbed target amount? isTarget absorbs =>
    have same : ledger.SameHoldings (ledger.absorbed target amount?) := absorbed_sameHoldings
    have inside := Transaction.mem_of_target? isTarget
    obtain ⟨entry, isEntry, finds⟩ := absorbs_some_iff active.isOwner inside common absorbs
    have able : entry.price ≠ 0 := by
      have but : ledger.AlikeBut target (ledger.absorbed target amount?) := absorbed_alikeBut
      have kept := congrArg (Option.map Split.price) but.target
      rw [isEntry, Option.map_map, Option.map_map, Option.map_some] at kept
      have price : (ledger.absorbed target amount?).price target = entry.price :=
        congrArg (Option.getD · 1) kept
      exact price ▸ priced target (by rw [same.splitsOf, splitsOf_eq active.isOwner]; exact inside)
    obtain ⟨sum, valued, zero, -⟩ := transactionValue_absorbed active.isOwner
      (owned.nodup active.isOwner) inside common absorbs
    obtain rfl := zero (finds.mpr (.inr able))
    obtain ⟨again, isAgain, relisted⟩ := same.transaction active.isOwner
    have found := same.commonCommodity common
    refine ⟨⟨base, found, valued⟩, fun source first concordant => ?_⟩
    rw [splitsOf_eq isAgain] at first
    exact imbalance_of_concordant isAgain first (relisted ▸ listed) concordant found valued
  | paired account holder amount? lone matters absorbs =>
    have same := lone.paired_sameValues absorbs
    exact ⟨⟨_, same.commonCommodity (lone.commonCommodity_withCounterpart lone.split?_edited rfl),
      same.transactionValue lone.balanced⟩, fun _ _ _ => same.imbalance lone.imbalance⟩
  | rested alone idle =>
    rw [splitsOf_eq active.isOwner, alone] at several
    simp at several

end Outcomes

end Ledger

open Ledger

/-! ## Releasing and appending -/

section Places

variable {α J : Type} [Scalar α] {ledger : Ledger α J} {edited split : SplitId}
  {owner former : TransactionId}

omit [Scalar α] in
theorem Ledger.KeepsPlaces.trans {middle after : Ledger α J} (first : ledger.KeepsPlaces middle)
    (second : middle.KeepsPlaces after)
    (stays : ∀ id, (ledger.split? id).isSome → (middle.split? id).isSome) :
    ledger.KeepsPlaces after where
  accountOf id live := (second.accountOf id (stays id live)).trans (first.accountOf id live)
  defers := second.defers.trans first.defers

omit [Scalar α] in
theorem Ledger.keepsPlaces_setParent {change : Transaction → Transaction}
    (parent : Option TransactionId) : ledger.KeepsPlaces
      ((ledger.modifyTransaction former change).modifySplit split fun s => { s with parent }) where
  accountOf id _ := accountOf?_congr
    (Table.map_get?_modify ledger.splits split _ (·.account) (by exact fun _ => rfl) id)
  defers := rfl

theorem Action.ends_rebalanceSplit_places (owned : ledger.Owned) :
    (rebalanceSplit edited).Ends ledger fun result after =>
      after.minted ≤ 2 ^ 128 → result = .ok () → ledger.KeepsPlaces after := by
  have acts {settlement : Settlement} (decided : ledger.settlement edited = .ok settlement)
      (goesOn : settlement ≠ .rest) : (rebalanceSplit edited).Ends ledger fun result after =>
        after.minted ≤ 2 ^ 128 → result = .ok () → ledger.KeepsPlaces after := by
    obtain ⟨split, owner, transaction, active⟩ := active_of_settlement decided goesOn
    intro fresh succeeds
    obtain ⟨base, -, rebalanced⟩ := active.rebalanced owned fresh succeeds
    exact rebalanced.keepsPlaces
  rcases decided : ledger.settlement edited with _ | _ | _ | _
  · rw [rebalanceSplit, ends_settle, decided]
    exact fun _ succeeds => by cases succeeds
  · rw [rebalanceSplit, ends_settle, decided]
    exact fun _ _ => ⟨fun _ _ => rfl, rfl⟩
  · exact acts decided (by simp)
  · exact acts decided (by simp)

/-- A split that is released stays in its account, and so do all others. -/
theorem Action.ends_release_places (owned : ledger.Owned)
    (named : ledger.ownership.named split = some (some former)) :
    (release former split).Ends ledger fun result after =>
      after.minted ≤ 2 ^ 128 → result = .ok () → ledger.KeepsPlaces after := by
  have places : ledger.KeepsPlaces (ledger.parted former split) := keepsPlaces_setParent none
  have live (id : SplitId) : ((ledger.parted former split).split? id).isSome =
      (ledger.split? id).isSome := isSome_split?_modifySplit split _ id
  refine ends_release_of (fun _ _ succeeds => by cases succeeds) (fun _ _ _ _ _ => places)
    fun transaction source releases _ => ?_
  have sound := Ownership.owned_parted owned named releases.isOwner releases.several
  refine (ends_rebalanceSplit_places sound).imp fun result after kept => ?_
  cases result with
  | error _ => exact fun _ succeeds => by cases succeeds
  | ok _ =>
    exact fun fresh succeeds => places.trans (kept fresh succeeds) fun id there => (live id).trans there

end Places

/-! ## Commands that balance -/

/-- The commands that balance a transaction from a split: edits of the numbers of one of its splits, and
appending a split. -/
def Command.Balances {α J : Type} (ledger : Ledger α J) (edited : SplitId) (owner : TransactionId) :
    Command α → Prop
  | .setPriceAndAmount split _ _ | .setPrice split _ | .setAmount split _ | .setValue split _ =>
    split = edited ∧ ledger.parentOf? edited = some owner
  | .appendSplit transaction split => split = edited ∧ transaction = owner
  | _ => False

section Balancing

variable {J : Type} {ledger : Ledger Rat J} {edited : SplitId} {split : Split Rat}
  {owner : TransactionId} {transaction : Transaction}

/-- An edit that succeeds and leaves two splits or more, none of them at price zero, balances. -/
def Balancing (owner : TransactionId) (edited : SplitId) (result : Except Fault Unit)
    (after : Ledger Rat J) : Prop :=
  after.minted ≤ 2 ^ 128 → result = .ok () → 2 ≤ (after.splitsOf owner).length →
    (∀ entry ∈ after.splitsOf owner, after.price entry ≠ 0) → after.BalancedFrom owner edited

theorem balancing_error {fault : Fault} : Balancing owner edited (.error fault) ledger := fun _ => nofun

namespace Action

theorem ends_rebalanceSplit_balancing (active : ledger.Active edited split owner transaction)
    (owned : ledger.minted ≤ 2 ^ 128 → ledger.Owned) :
    (rebalanceSplit edited).Ends ledger (Balancing owner edited) := by
  intro fresh succeeds several priced
  have grows : ledger.minted ≤ _ := ends_rebalanceSplit_minted edited
  have sound := owned (grows.trans fresh)
  obtain ⟨base, common, rebalanced⟩ := active.rebalanced sound fresh succeeds
  exact rebalanced.balancedFrom active sound common several priced

theorem ends_editNumbers_balancing (active : ledger.Active edited split owner transaction)
    (owned : ledger.Owned) {change : Split Rat → Split Rat} (keeps : Split.KeepsLinks change) :
    (editNumbers edited change).Ends ledger (Balancing owner edited) := by
  rw [editNumbers, ensureEditable_eq, ends_bind, ends_ask]
  cases ledger.checkEditable edited with
  | error _ => exact balancing_error
  | ok _ =>
    simp only [ends_bind, ends_update]
    have alike := ledger.mark_alike edited
    have sound : ((ledger.mark edited).modifySplit edited change).Owned :=
      (owned.linked alike.ownership alike.minted.ge).linked (ownership_modifySplit keeps.parent) le_rfl
    have changed : ((ledger.mark edited).modifySplit edited change).Active edited (change split) owner
        transaction := by
      refine ⟨?_, (keeps.parent split).trans active.parent,
        (transaction?_mark edited owner).trans active.isOwner, active.undeferred, ?_⟩
      · rw [split?_modifySplit, if_pos rfl, split?_mark, active.isSplit, Option.map_some]
      · rw [keeps.account]
        exact alike.defers ▸ active.ready
    exact ends_rebalanceSplit_balancing changed fun _ => sound

/-- Once it is part of the transaction, an appended split is like an edited one. -/
theorem ends_adopt_balancing (isSplit : ledger.split? edited = some split)
    (isOwner : ledger.transaction? owner = some transaction)
    (undeferred : transaction.edit.defers = false)
    (ready : split.account.any ledger.accounts.defers = false)
    (sound : ledger.minted ≤ 2 ^ 128 → (ledger.joined owner edited).Owned) :
    (adopt rebalanceSplit owner edited).Ends ledger (Balancing owner edited) := by
  have alike := (ledger.joined owner edited).mark_alike edited
  have active := active_joined isSplit isOwner undeferred ready
  refine ends_adopt.mpr (ends_rebalanceSplit_balancing active fun fresh => ?_)
  have fewer : ledger.minted ≤ 2 ^ 128 := alike.minted ▸ fresh
  exact (sound fewer).linked alike.ownership alike.minted.ge

theorem ends_adopt_minted (owner : TransactionId) (edited : SplitId) :
    (adopt rebalanceSplit owner edited).Ends ledger fun _ after => ledger.minted ≤ after.minted := by
  refine ends_adopt.mpr ((ends_rebalanceSplit_minted edited).imp fun _ after grows => ?_)
  rw [(Ledger.mark_alike _ edited).minted] at grows
  exact grows

theorem ends_appendSplit_balancing (owned : ledger.Owned)
    (undeferred : (ledger.transaction? owner).any (·.edit.defers) = false)
    (ready : (ledger.accountOf? edited).any ledger.accounts.defers = false) :
    (appendSplit owner edited).Ends ledger (Balancing owner edited) := by
  refine ends_appendSplit_of (fun _ => balancing_error) fun entry isOpen isSplit => ?_
  obtain ⟨transaction, isOwner, -⟩ := checkOpen_eq_ok_iff.mp isOpen
  have listed : (ledger.ownership.listed owner).isSome := by simp [listed_eq isOwner]
  have named := parent_eq_iff.mpr ⟨entry, isSplit, rfl⟩
  rw [isOwner] at undeferred
  rw [accountOf?_eq isSplit] at ready
  cases parent : entry.parent with
  | none =>
    exact ends_adopt_balancing isSplit isOwner undeferred ready fun _ =>
      Ownership.owned_joined owned (parent ▸ named) listed
  | some former =>
    rw [parent] at named
    dsimp only
    split
    · rename_i same
      obtain rfl : owner = former := same.symm
      have dropped : (ledger.modifyTransaction owner (·.drop edited)).transaction? owner =
          some (transaction.drop edited) := by
        rw [transaction?_modifyTransaction, if_pos rfl, isOwner, Option.map_some]
      exact ends_adopt_balancing isSplit dropped undeferred ready fun _ =>
        owned.linked (ownership_reattach owned.agree named) le_rfl
    · rename_i different
      have outside : edited ∉ (Shelter.around owner transaction).splits := fun inside =>
        different <| Option.some.inj <| Option.some.inj <|
          named.symm.trans ((owned.mem_iff isOwner).mp inside)
      have released := (Ownership.ends_release (fun _ => owned) named).and <|
        (ends_release_places owned named).and <|
          Shelter.ends_release_stays (fun _ => owned.spares isOwner) outside fun _ => different
      refine released.imp fun result after ends => ?_
      obtain ⟨⟨sound, free⟩, places, stays⟩ := ends
      cases result with
      | error _ => exact balancing_error
      | ok _ =>
        intro fresh
        have grows : after.minted ≤ _ := ends_adopt_minted owner edited
        have early : after.minted ≤ 2 ^ 128 := grows.trans fresh
        obtain ⟨unheld, lists⟩ := free rfl early
        obtain ⟨again, isAgain, -⟩ := parent_eq_iff.mp unheld
        have kept := places early rfl
        have isStill := ((stays early).transaction rfl).trans isOwner
        have within := kept.accountOf edited (by rw [isSplit]; rfl)
        rw [accountOf?_eq isAgain, accountOf?_eq isSplit] at within
        refine ends_adopt_balancing isAgain isStill undeferred ?_ (fun fresh =>
          Ownership.owned_joined (sound fresh) unheld (lists owner listed)) fresh
        rw [within, kept.defers]
        exact ready

/-- A number that is not finite is refused before anything else. -/
theorem ends_ensureFinite_balancing {role : NumberRole} {number : Rat} {next : Action Rat J Unit}
    (ends : next.Ends ledger (Balancing owner edited)) :
    (ensureFinite role number >>= fun _ => next).Ends ledger (Balancing owner edited) := by
  rw [ensureFinite_eq, ends_bind, ends_ite]
  split
  · exact ends
  · exact balancing_error

theorem ends_setValue_balancing (active : ledger.Active edited split owner transaction)
    (owned : ledger.Owned) (value : Rat) :
    (setValue edited value).Ends ledger (Balancing owner edited) := by
  refine ends_ensureFinite_balancing ?_
  rw [ensureEditable_eq, ends_bind, ends_ask]
  cases ledger.checkEditable edited with
  | error _ => exact balancing_error
  | ok _ =>
    dsimp only
    rw [ends_bind, ends_ask, split_eq_ok_iff.mpr active.isSplit]
    dsimp only
    rw [ends_ite]
    split
    · exact balancing_error
    · exact ends_editNumbers_balancing active owned (by constructor <;> exact fun _ => rfl)

end Action

variable [Journal J Rat]

/-- An edit of the amount or price of a split, or appending one, where neither the transaction nor the
account of the split puts rebalancing off: if it succeeds and leaves two splits or more, none of them at
price zero, then the splits sum to zero in the commodity that is found from the edited split; and the
ledger reports no imbalance, unless the source decides on another commodity. -/
theorem Reachable.edit_balances (reached : Reachable (fun _ => True) ledger) {command : Command Rat}
    (balances : command.Balances ledger edited owner)
    (undeferred : (ledger.transaction? owner).any (·.edit.defers) = false)
    (ready : (ledger.accountOf? edited).any ledger.accounts.defers = false)
    (fresh : (command.run ledger).ledger.minted ≤ 2 ^ 128)
    (succeeds : (command.run ledger).result = .ok .done)
    (several : 2 ≤ ((command.run ledger).ledger.splitsOf owner).length)
    (priced : ∀ entry ∈ (command.run ledger).ledger.splitsOf owner,
      (command.run ledger).ledger.price entry ≠ 0) :
    (command.run ledger).ledger.BalancedFrom owner edited := by
  suffices ends : (command.act (J := J)).Ends ledger fun result after =>
      after.minted ≤ 2 ^ 128 → result = .ok .done → 2 ≤ (after.splitsOf owner).length →
        (∀ entry ∈ after.splitsOf owner, after.price entry ≠ 0) → after.BalancedFrom owner edited from
    ends fresh succeeds several priced
  have owned := reached.owned
  have closes {action : Action Rat J Unit} (same : command.act (J := J) = Command.act.done action)
      (ends : action.Ends ledger (Balancing owner edited)) :
      (command.act (J := J)).Ends ledger fun result after =>
        after.minted ≤ 2 ^ 128 → result = .ok .done → 2 ≤ (after.splitsOf owner).length →
          (∀ entry ∈ after.splitsOf owner, after.price entry ≠ 0) →
            after.BalancedFrom owner edited := by
    rw [same, Command.act.done, ends_bind]
    refine ends.imp fun result after balanced => ?_
    cases result with
    | error _ => exact fun _ => nofun
    | ok _ => exact fun fresh _ => balanced fresh rfl
  have active (parent : ledger.parentOf? edited = some owner) :
      ∃ split transaction, ledger.Active edited split owner transaction := by
    obtain ⟨split, isSplit, parent⟩ := Option.bind_eq_some_iff.mp parent
    obtain ⟨transaction, isOwner⟩ := owned.known (parent_eq_iff.mpr ⟨split, isSplit, parent⟩)
    rw [isOwner] at undeferred
    rw [accountOf?_eq isSplit] at ready
    exact ⟨split, transaction, isSplit, parent, isOwner, undeferred, ready⟩
  cases command with
  | setPriceAndAmount _ price amount =>
    obtain ⟨rfl, parent⟩ := balances
    obtain ⟨split, transaction, active⟩ := active parent
    exact closes rfl <| ends_ensureFinite_balancing <| ends_ensureFinite_balancing <|
      ends_editNumbers_balancing active owned (by constructor <;> exact fun _ => rfl)
  | setPrice _ _ | setAmount _ _ =>
    obtain ⟨rfl, parent⟩ := balances
    obtain ⟨split, transaction, active⟩ := active parent
    exact closes rfl <| ends_ensureFinite_balancing <|
      ends_editNumbers_balancing active owned (by constructor <;> exact fun _ => rfl)
  | setValue _ value =>
    obtain ⟨rfl, parent⟩ := balances
    obtain ⟨split, transaction, active⟩ := active parent
    exact closes rfl (ends_setValue_balancing active owned value)
  | appendSplit _ _ =>
    obtain ⟨rfl, rfl⟩ := balances
    exact closes rfl (ends_appendSplit_balancing owned undeferred ready)
  | _ => exact balances.elim

end Balancing

/-! ## Two accounts

Source 2 of transaction 3 is in account 0, and split 5 in account 1.
-/

section TwoSided

def Commodity.euro : Commodity := ⟨"EUR", by decide⟩

def Deed.twoSided (first second : Option Commodity) (other : Commodity) :
    List (Deed Rat (MemoryLog Rat)) :=
  [.openAccount "One" .dollar first, .openAccount "Other" other second,
    .command .createTransaction, .command (.beginEdit ⟨.ofNat 3⟩ false),
    .command (.enterAccount ⟨.ofNat 0⟩ ⟨.ofNat 2⟩), .command .createSplit,
    .command (.enterAccount ⟨.ofNat 1⟩ ⟨.ofNat 5⟩),
    .command (.appendSplit ⟨.ofNat 3⟩ ⟨.ofNat 5⟩)]

/-- Both accounts have the same currency and no security. -/
def Ledger.twoSided : Ledger Rat (MemoryLog Rat) :=
  (Ledger.start ⟨.forceBalance⟩ {}).after (Deed.twoSided none none .dollar)

/-- The currency of each account is the security of the other. -/
def Ledger.crossed : Ledger Rat (MemoryLog Rat) :=
  (Ledger.start ⟨.forceBalance⟩ {}).after (Deed.twoSided (some .euro) (some .dollar) .euro)

/-- Split 6 has no account, and the other two have one commodity in common that is only the security of
the first. -/
def Ledger.mixed : Ledger Rat (MemoryLog Rat) :=
  (Ledger.start ⟨.tolerant⟩ {}).after (Deed.twoSided (some .euro) none .euro ++
    [.command (.setPriceAndAmount ⟨.ofNat 2⟩ 2 3), .command .createSplit,
      .command (.appendSplit ⟨.ofNat 3⟩ ⟨.ofNat 6⟩)])

/-- An edit between two accounts of one currency leaves no imbalance. -/
theorem Reachable.edit_balances_twoSided :
    ((Command.setPriceAndAmount ⟨.ofNat 5⟩ 2 3).run twoSided).ledger.imbalance ⟨.ofNat 3⟩ = .ok 0 := by
  have reached : Reachable (fun _ => True) twoSided :=
    (Reachable.start _ _).after _ (fun _ _ => trivial) (by decide +kernel)
  have balances : (Command.setPriceAndAmount ⟨.ofNat 5⟩ 2 3 : Command Rat).Balances twoSided ⟨.ofNat 5⟩
      ⟨.ofNat 3⟩ := ⟨rfl, by decide +kernel⟩
  have balanced := Reachable.edit_balances reached balances (by decide +kernel) (by decide +kernel)
    (by decide +kernel) (by decide +kernel) (by decide +kernel) (by decide +kernel)
  generalize ended : ((Command.setPriceAndAmount ⟨.ofNat 5⟩ 2 3).run twoSided).ledger = after
    at balanced ⊢
  have source : (after.splitsOf ⟨.ofNat 3⟩).head? = some ⟨.ofNat 2⟩ := by
    rw [← ended]
    decide +kernel
  have one : (after.holder? ⟨.ofNat 5⟩).map (·.currency) = some .dollar := by
    rw [← ended]
    decide +kernel
  have other : (after.holder? ⟨.ofNat 2⟩).map (·.currency) = some .dollar := by
    rw [← ended]
    decide +kernel
  refine balanced.reported ⟨.ofNat 2⟩ source
    ⟨fun edited first found foundToo => .inl ?_, fun differ => ?_⟩
  · rw [found] at one
    rw [foundToo] at other
    exact (Option.some.inj one).trans (Option.some.inj other).symm
  · have both := congrArg Option.isSome (one.trans other.symm)
    rw [Option.isSome_map, Option.isSome_map] at both
    exact absurd both differ

/-- An edit that succeeds may leave an imbalance of three where the accounts prefer different ones of
two commodities, and one of a half where the edited split has no account. -/
theorem Reachable.edit_imbalanced :
    (Reachable (fun _ => True) crossed ∧
      (Command.setPriceAndAmount ⟨.ofNat 5⟩ 2 3 : Command Rat).Balances crossed ⟨.ofNat 5⟩ ⟨.ofNat 3⟩ ∧
      (crossed.transaction? ⟨.ofNat 3⟩).any (·.edit.defers) = false ∧
      (crossed.accountOf? ⟨.ofNat 5⟩).any crossed.accounts.defers = false ∧
      ((Command.setPriceAndAmount ⟨.ofNat 5⟩ 2 3).run crossed).result = .ok .done ∧
      2 ≤ (((Command.setPriceAndAmount ⟨.ofNat 5⟩ 2 3).run crossed).ledger.splitsOf ⟨.ofNat 3⟩).length ∧
      (∀ entry ∈ ((Command.setPriceAndAmount ⟨.ofNat 5⟩ 2 3).run crossed).ledger.splitsOf ⟨.ofNat 3⟩,
        ((Command.setPriceAndAmount ⟨.ofNat 5⟩ 2 3).run crossed).ledger.price entry ≠ 0) ∧
      ((Command.setPriceAndAmount ⟨.ofNat 5⟩ 2 3).run crossed).ledger.imbalance ⟨.ofNat 3⟩ =
        .ok (-3)) ∧
    (Reachable (fun _ => True) mixed ∧
      (Command.setAmount ⟨.ofNat 6⟩ 4 : Command Rat).Balances mixed ⟨.ofNat 6⟩ ⟨.ofNat 3⟩ ∧
      (mixed.transaction? ⟨.ofNat 3⟩).any (·.edit.defers) = false ∧
      (mixed.accountOf? ⟨.ofNat 6⟩).any mixed.accounts.defers = false ∧
      ((Command.setAmount ⟨.ofNat 6⟩ 4).run mixed).result = .ok .done ∧
      2 ≤ (((Command.setAmount ⟨.ofNat 6⟩ 4).run mixed).ledger.splitsOf ⟨.ofNat 3⟩).length ∧
      (∀ entry ∈ ((Command.setAmount ⟨.ofNat 6⟩ 4).run mixed).ledger.splitsOf ⟨.ofNat 3⟩,
        ((Command.setAmount ⟨.ofNat 6⟩ 4).run mixed).ledger.price entry ≠ 0) ∧
      ((Command.setAmount ⟨.ofNat 6⟩ 4).run mixed).ledger.imbalance ⟨.ofNat 3⟩ = .ok (1 / 2)) := by
  refine ⟨⟨?_, ⟨rfl, ?_⟩, ?_, ?_, ?_, ?_, ?_, ?_⟩, ?_, ⟨rfl, ?_⟩, ?_, ?_, ?_, ?_, ?_, ?_⟩
  · exact (Reachable.start _ _).after _ (fun _ _ => trivial) (by decide +kernel)
  · decide +kernel
  · decide +kernel
  · decide +kernel
  · decide +kernel
  · decide +kernel
  · decide +kernel
  · decide +kernel
  · exact (Reachable.start _ _).after _ (fun _ _ => trivial) (by decide +kernel)
  · decide +kernel
  · decide +kernel
  · decide +kernel
  · decide +kernel
  · decide +kernel
  · decide +kernel
  · decide +kernel

end TwoSided

end DoubleEntry
