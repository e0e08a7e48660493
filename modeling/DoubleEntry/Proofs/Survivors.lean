import DoubleEntry.Proofs.Concordance

/-! # What a list of accounts leaves of a candidate

Narrowing by one account drops a slot, both or none, and moves what is left to the front. What a whole list
of accounts leaves has a form that does not mention the steps (`Candidate.narrowAll_pair`): both slots, if
each account has the two commodities as its currency and its security, in either order; or else the first of
the two that all accounts have. So narrowing is intersection, and neither the order of the accounts nor how
often they are listed matters (`Denomination.narrowedBy_intersects`). The search for the commodity of a
transaction is such a narrowing.
-/

namespace DoubleEntry

/-- The commodities of an account. -/
structure Denomination where
  currency : Commodity
  security : Option Commodity
deriving DecidableEq, Repr

namespace Denomination

def Has (account : Denomination) (commodity : Commodity) : Prop :=
  account.currency = commodity ∨ account.security = some commodity

/-- Two commodities are the currency and the security of an account, in either order. -/
def Spans (account : Denomination) (first second : Commodity) : Prop :=
  account = ⟨first, some second⟩ ∨ account = ⟨second, some first⟩

instance (account : Denomination) (commodity : Commodity) : Decidable (account.Has commodity) :=
  inferInstanceAs (Decidable (_ ∨ _))

instance (account : Denomination) (first second : Commodity) : Decidable (account.Spans first second) :=
  inferInstanceAs (Decidable (_ ∨ _))

variable {account : Denomination} {first second : Commodity}

theorem Spans.has_first (spans : account.Spans first second) : account.Has first := by
  rcases spans with rfl | rfl
  · exact .inl rfl
  · exact .inr rfl

theorem Spans.has_second (spans : account.Spans first second) : account.Has second := by
  rcases spans with rfl | rfl
  · exact .inr rfl
  · exact .inl rfl

/-- Two commodities of an account that does not span them are the same. -/
theorem eq_of_not_spans (hasFirst : account.Has first) (hasSecond : account.Has second)
    (apart : ¬ account.Spans first second) : first = second := by
  obtain ⟨currency, security⟩ := account
  rcases hasFirst with rfl | isSecurity
  · rcases hasSecond with same | isSecurity
    · exact same
    · obtain rfl : security = some second := isSecurity
      exact absurd (.inl rfl) apart
  · obtain rfl : security = some first := isSecurity
    rcases hasSecond with rfl | same
    · exact absurd (.inr rfl) apart
    · exact Option.some.inj same

def commodities (account : Denomination) : Set Commodity := {commodity | account.Has commodity}

end Denomination

namespace Candidate

open Denomination

/-- Narrows by one account after the other. -/
def narrowAll (candidate : Candidate) (accounts : List Denomination) : Candidate :=
  accounts.foldl (fun left account => left.narrow account.currency account.security) candidate

/-- The slots that are filled, from the front. -/
def slots (candidate : Candidate) : List Commodity :=
  candidate.primary.toList ++ candidate.secondary.toList

def commodities (candidate : Candidate) : Set Commodity := {commodity | candidate.Offers commodity}

variable {candidate : Candidate} {account : Denomination} {accounts : List Denomination}
  {first second commodity : Commodity}

theorem narrowAll_cons : candidate.narrowAll (account :: accounts) =
    (candidate.narrow account.currency account.security).narrowAll accounts := rfl

/-! ## The form of what is left -/

theorem narrow_single : (⟨some first, none⟩ : Candidate).narrow account.currency account.security =
    if account.Has first then ⟨some first, none⟩ else ⟨none, none⟩ :=
  if_congr (or_congr_left eq_comm) rfl rfl

/-- An account leaves both slots if it spans them, or else the first of them that it has. -/
theorem narrow_pair :
    (⟨some first, some second⟩ : Candidate).narrow account.currency account.security =
      if account.Spans first second then ⟨some first, some second⟩
      else if account.Has first then ⟨some first, none⟩
      else if account.Has second then ⟨some second, none⟩
      else ⟨none, none⟩ := by
  obtain ⟨currency, security⟩ := account
  simp only [narrow, Has, Spans, Denomination.mk.injEq]
  grind

theorem narrowAll_of_empty (empty : candidate.primary = none) : candidate.narrowAll accounts = candidate := by
  obtain ⟨_ | first, second⟩ := candidate
  · induction accounts with
    | nil => rfl
    | cons account rest ih => exact ih
  · contradiction

theorem narrowAll_single : (⟨some first, none⟩ : Candidate).narrowAll accounts =
    if ∀ account ∈ accounts, account.Has first then ⟨some first, none⟩ else ⟨none, none⟩ := by
  induction accounts with
  | nil => simp [narrowAll]
  | cons account rest ih =>
    rw [narrowAll_cons, narrow_single]
    by_cases has : account.Has first
    · simp only [has, if_true, ih, List.forall_mem_cons, true_and]
    · simp only [has, if_false, List.forall_mem_cons, false_and, narrowAll_of_empty]

theorem narrowAll_pair : (⟨some first, some second⟩ : Candidate).narrowAll accounts =
    if ∀ account ∈ accounts, account.Spans first second then ⟨some first, some second⟩
    else if ∀ account ∈ accounts, account.Has first then ⟨some first, none⟩
    else if ∀ account ∈ accounts, account.Has second then ⟨some second, none⟩
    else ⟨none, none⟩ := by
  induction accounts with
  | nil => simp [narrowAll]
  | cons account rest ih =>
    rw [narrowAll_cons, narrow_pair]
    simp only [List.forall_mem_cons]
    by_cases spans : account.Spans first second
    · simp only [spans, spans.has_first, spans.has_second, if_true, true_and, ih]
    · by_cases hasFirst : account.Has first
      · -- The second slot is lost even if the account has what is in it: that is the first one again.
        have again : account.Has second → (∀ account ∈ rest, account.Has second) →
            ∀ account ∈ rest, account.Has first := by
          intro hasSecond others
          rwa [eq_of_not_spans hasFirst hasSecond spans]
        simp only [spans, hasFirst, if_true, if_false, true_and, false_and, narrowAll_single]
        by_cases others : ∀ account ∈ rest, account.Has first
        · rw [if_pos others, if_pos others]
        · rw [if_neg others, if_neg others, if_neg fun both => others (again both.1 both.2)]
      · by_cases hasSecond : account.Has second
        · simp only [spans, hasFirst, hasSecond, if_true, if_false, true_and, false_and, narrowAll_single]
        · simp only [spans, hasFirst, hasSecond, if_false, false_and, narrowAll_of_empty]

/-- What is left depends on which accounts are listed, and neither on their order nor on how often. -/
theorem narrowAll_congr {again : List Denomination}
    (same : ∀ account, account ∈ again ↔ account ∈ accounts) :
    candidate.narrowAll again = candidate.narrowAll accounts := by
  obtain ⟨_ | first, _ | second⟩ := candidate
  · rw [narrowAll_of_empty rfl, narrowAll_of_empty rfl]
  · rw [narrowAll_of_empty rfl, narrowAll_of_empty rfl]
  · simp only [narrowAll_single, same]
  · simp only [narrowAll_pair, same]

/-! ## From one account to all of them -/

theorem fronted_narrowAll (fronted : candidate.Fronted) : (candidate.narrowAll accounts).Fronted := by
  induction accounts generalizing candidate with
  | nil => exact fronted
  | cons account rest ih => exact ih (fronted_narrow fronted)

theorem offers_narrowAll_iff (fronted : candidate.Fronted) :
    (candidate.narrowAll accounts).Offers commodity ↔
      candidate.Offers commodity ∧ ∀ account ∈ accounts, account.Has commodity := by
  induction accounts generalizing candidate with
  | nil => simp [narrowAll]
  | cons account rest ih =>
    rw [narrowAll_cons, ih (fronted_narrow fronted), List.forall_mem_cons, ← and_assoc]
    apply and_congr_left
    intro _
    exact ⟨offers_of_narrow fronted, fun ⟨offered, has⟩ => offered.narrow has⟩

/-- The commodity in front stays there if all accounts have it. -/
theorem primary_narrowAll (inFront : candidate.primary = some commodity)
    (has : ∀ account ∈ accounts, account.Has commodity) :
    (candidate.narrowAll accounts).primary = some commodity := by
  induction accounts generalizing candidate with
  | nil => exact inFront
  | cons account rest ih =>
    obtain ⟨hasHere, hasLater⟩ := List.forall_mem_cons.mp has
    exact ih (primary_narrow inFront hasHere) hasLater

theorem slots_narrow :
    (candidate.narrow account.currency account.security).slots.Sublist candidate.slots := by
  obtain ⟨_ | first, _ | second⟩ := candidate
  · exact List.Sublist.refl _
  · exact List.Sublist.refl _
  · rw [narrow_single]
    split_ifs <;> simp [slots]
  · rw [narrow_pair]
    split_ifs <;> simp [slots]

theorem slots_narrowAll : (candidate.narrowAll accounts).slots.Sublist candidate.slots := by
  induction accounts generalizing candidate with
  | nil => exact List.Sublist.refl _
  | cons account rest ih => exact ih.trans slots_narrow

theorem isExhausted_iff (fronted : candidate.Fronted) :
    candidate.isExhausted = true ↔ candidate.commodities = ∅ := by
  rw [Set.eq_empty_iff_forall_notMem]
  constructor
  · intro exhausted commodity offered
    simp [Offers.remains offered] at exhausted
  · intro nothing
    by_contra remains
    obtain ⟨commodity, inFront⟩ := primary_of_remains fronted (by simpa using remains)
    exact nothing commodity (.inl inFront)

end Candidate

namespace Denomination

open Candidate

/-- The commodities of one account that every account of a list has as well. -/
def shared (start : Denomination) (accounts : List Denomination) : Set Commodity :=
  (Candidate.seed start.currency start.security).commodities ∩ ⋂ account ∈ accounts, account.commodities

/-- What the accounts of a list leave of the commodities of one. -/
def narrowedBy (start : Denomination) (accounts : List Denomination) : Candidate :=
  (Candidate.seed start.currency start.security).narrowAll accounts

variable {start : Denomination} {accounts : List Denomination} {commodity : Commodity}

theorem mem_shared_iff : commodity ∈ start.shared accounts ↔
    (Candidate.seed start.currency start.security).Offers commodity ∧
      ∀ account ∈ accounts, account.Has commodity := by
  simp [shared, Candidate.commodities, commodities]

theorem shared_append (accounts more : List Denomination) :
    start.shared (accounts ++ more) ⊆ start.shared accounts := by
  intro commodity inside
  rw [mem_shared_iff, List.forall_mem_append] at inside
  exact mem_shared_iff.mpr ⟨inside.1, inside.2.1⟩

theorem fronted_narrowedBy : (start.narrowedBy accounts).Fronted := fronted_narrowAll fronted_seed

theorem offers_narrowedBy_iff : (start.narrowedBy accounts).Offers commodity ↔
    commodity ∈ start.shared accounts := by
  rw [narrowedBy, offers_narrowAll_iff fronted_seed, mem_shared_iff]

theorem commodities_narrowedBy : (start.narrowedBy accounts).commodities = start.shared accounts :=
  Set.ext fun _ => offers_narrowedBy_iff

theorem isExhausted_narrowedBy_iff :
    (start.narrowedBy accounts).isExhausted = true ↔ start.shared accounts = ∅ := by
  rw [isExhausted_iff fronted_narrowedBy, commodities_narrowedBy]

theorem resolved_of_currency (inside : start.currency ∈ start.shared accounts) :
    (start.narrowedBy accounts).resolved = some start.currency :=
  primary_narrowAll rfl (mem_shared_iff.mp inside).2

/-- Without the currency, only the security may be left. -/
theorem resolved_iff_of_security (outside : start.currency ∉ start.shared accounts) :
    (start.narrowedBy accounts).resolved = some commodity ↔
      start.security = some commodity ∧ commodity ∈ start.shared accounts := by
  have isSecurity {commodity : Commodity} (inside : commodity ∈ start.shared accounts) :
      start.security = some commodity := by
    rcases (mem_shared_iff.mp inside).1 with isCurrency | isSecurity
    · exact absurd (Option.some.inj isCurrency ▸ inside) outside
    · exact isSecurity
  constructor
  · intro inFront
    have inside := offers_narrowedBy_iff.mp (.inl inFront)
    exact ⟨isSecurity inside, inside⟩
  · rintro ⟨security, inside⟩
    have remains := (offers_narrowedBy_iff.mpr inside).remains
    obtain ⟨other, inFront⟩ := primary_of_remains fronted_narrowedBy remains
    have otherSecurity := isSecurity (offers_narrowedBy_iff.mp (.inl inFront))
    rw [inFront, ← security, otherSecurity]

/-- What narrowing comes to, told by intersection. -/
structure Intersects (start : Denomination) (accounts : List Denomination) : Prop where
  commodities : (start.narrowedBy accounts).commodities = start.shared accounts
  /-- At no stage is the slot behind filled while the one in front is empty. -/
  fronted : ∀ stage, stage <+: accounts → (start.narrowedBy stage).primary = none →
    (start.narrowedBy stage).secondary = none
  /-- What is left stays in its order. -/
  ordered : (start.narrowedBy accounts).slots.Sublist
    (Candidate.seed start.currency start.security).slots
  /-- The currency is used if it is left, -/
  currency : start.currency ∈ start.shared accounts →
    (start.narrowedBy accounts).resolved = some start.currency
  /-- and otherwise the security if that is left. -/
  security : start.currency ∉ start.shared accounts → ∀ commodity,
    (start.narrowedBy accounts).resolved = some commodity ↔
      start.security = some commodity ∧ commodity ∈ start.shared accounts
  exhausted : (start.narrowedBy accounts).isExhausted = true ↔ start.shared accounts = ∅
  /-- Further accounts bring nothing back. -/
  stays : (start.narrowedBy accounts).isExhausted = true → ∀ more,
    (start.narrowedBy (accounts ++ more)).isExhausted = true
  /-- The same accounts in another order, or listed more often, leave the same in the same slots. -/
  unordered : ∀ again, (∀ account, account ∈ again ↔ account ∈ accounts) →
    start.narrowedBy again = start.narrowedBy accounts

/-- Narrowing intersects: of the commodities of one account, a list of accounts leaves those that all of them
have, in the order that they were in, the first of them in front. Nothing is left exactly if nothing is
common to all; and what is left depends only on which accounts are listed. -/
theorem narrowedBy_intersects (start : Denomination) (accounts : List Denomination) :
    start.Intersects accounts := by
  constructor
  case commodities => exact commodities_narrowedBy
  case fronted => exact fun _ _ => fronted_narrowedBy
  case ordered => exact slots_narrowAll
  case currency => exact resolved_of_currency
  case security => exact fun outside _ => resolved_iff_of_security outside
  case exhausted => exact isExhausted_narrowedBy_iff
  case stays =>
    intro exhausted more
    rw [isExhausted_narrowedBy_iff] at exhausted ⊢
    exact Set.subset_eq_empty (shared_append accounts more) exhausted
  case unordered => exact fun _ same => narrowAll_congr same

/-- An account that has the two commodities the other way round leaves both where they are. -/
example : (⟨.dollar, some .euro⟩ : Denomination).narrowedBy [⟨.euro, some .dollar⟩] =
    ⟨some .dollar, some .euro⟩ := by
  decide

end Denomination

/-! ## The scan of a transaction -/

def Account.denomination (account : Account) : Denomination := ⟨account.currency, account.security⟩

namespace Ledger

variable {α J : Type} {ledger : Ledger α J} {owner : TransactionId} {transaction : Transaction}
  {trigger : SplitId} {split : Split α} {account : AccountId} {holder : Account}
  {start : AccountId × Account} {candidate final : Candidate} {splits : List SplitId}
  {base : Option Commodity}

/-- The commodities of the accounts that splits are in. -/
def denominations (ledger : Ledger α J) (splits : List SplitId) : List Denomination :=
  splits.filterMap fun entry => (ledger.holder? entry).map Account.denomination

/-- A scan that comes to its end has narrowed by the accounts of all splits. -/
theorem eq_narrowAll_of_narrowBy (narrowed : ledger.narrowBy start candidate splits = .ok final) :
    final = candidate.narrowAll (ledger.denominations splits) := by
  induction splits generalizing candidate with
  | nil => exact (Except.ok.inj narrowed).symm
  | cons entry rest ih =>
    obtain ⟨split, isSplit, narrowed⟩ := bind_eq_ok_iff.mp narrowed
    obtain ⟨place, found, narrowed⟩ := bind_eq_ok_iff.mp narrowed
    have held := holder?_of_accountOf (split_eq_ok_iff.mp isSplit) found
    rw [denominations, List.filterMap_cons, held]
    rcases place with _ | ⟨other, account⟩
    · dsimp only at narrowed
      split at narrowed
      · contradiction
      · exact ih narrowed
    · dsimp only at narrowed
      split at narrowed
      · contradiction
      · exact ih narrowed

/-- The commodity that is found for a transaction is the one in front of what its accounts leave of those of
the account that decides. -/
theorem eq_resolved_of_commonCommodity (isOwner : ledger.transaction? owner = some transaction)
    (isTrigger : ledger.split? trigger = some split)
    (within : ledger.accountOf trigger split = .ok (some (account, holder)))
    (found : ledger.commonCommodity owner trigger = .ok base) :
    base = (holder.denomination.narrowedBy (ledger.denominations transaction.splits)).resolved := by
  rw [commonCommodity, transaction_eq_ok_iff.mpr isOwner, ok_bind, split_eq_ok_iff.mpr isTrigger, ok_bind,
    within, ok_bind] at found
  obtain ⟨final, narrowed, resolved⟩ := bind_eq_ok_iff.mp found
  rw [← Except.ok.inj resolved, eq_narrowAll_of_narrowBy narrowed]
  rfl

end Ledger

end DoubleEntry
