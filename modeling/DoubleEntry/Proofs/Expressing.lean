import DoubleEntry.Proofs.Intersection

/-! # One rule for values

What a split is worth in a commodity is asked of one split, asked of many that are added up, and set. All
three follow the accounts. A split in an account that has the commodity is worth its value or its shares,
one in another account nothing that could be told, and one in no account its value, or nothing at all under
enforcement. They differ in what becomes of a split that cannot be expressed: alone it counts as zero, a sum
with it is a fault, and setting its worth does nothing.
-/

namespace DoubleEntry

open DoubleEntry.Action

/-- Whether an account expresses its splits in a commodity: in those that it has and, without enforcement,
also where none is named. -/
def Account.Expresses (account : Account) (enforced : Bool) : Option Commodity → Prop
  | none => enforced = false
  | some commodity => account.Has commodity

instance (account : Account) (enforced : Bool) :
    ∀ base : Option Commodity, Decidable (account.Expresses enforced base)
  | none => inferInstanceAs (Decidable (enforced = false))
  | some commodity =>
    inferInstanceAs (Decidable (account.currency = commodity ∨ account.security = some commodity))

theorem Account.valuation_eq_inexpressible_iff {account : Account} {enforced : Bool}
    {base : Option Commodity} :
    account.valuation enforced base = .inexpressible ↔ ¬ account.Expresses enforced base := by
  cases base with
  | none => cases enforced <;> simp [valuation, Expresses]
  | some commodity =>
    by_cases currency : account.currency = commodity
    · simp [valuation, Expresses, Has, currency]
    · by_cases security : account.security = some commodity <;>
        simp [valuation, Expresses, Has, currency, security]

theorem Account.valuation_eq_shares_iff {account : Account} {enforced : Bool} {base : Option Commodity} :
    account.valuation enforced base = .shares ↔
      ∃ commodity, base = some commodity ∧ account.currency ≠ commodity ∧
        account.security = some commodity := by
  cases base with
  | none => cases enforced <;> simp [valuation]
  | some commodity =>
    by_cases currency : account.currency = commodity
    · simp [valuation, currency]
    · by_cases security : account.security = some commodity <;> simp [valuation, currency, security]

namespace Ledger

variable {α J : Type}

/-- A split in no account, where every split has to be in one. -/
def IsOrphan (ledger : Ledger α J) (id : SplitId) : Prop :=
  ledger.enforces = true ∧ ledger.accountOf? id = none

/-- A split in an account that does not express it in a commodity, or that the book does not have. -/
def Inexpressible (ledger : Ledger α J) (base : Option Commodity) (id : SplitId) : Prop :=
  ∃ account, ledger.accountOf? id = some account ∧
    ∀ holder, ledger.account? account = some holder → ¬ holder.Expresses ledger.enforces base

/-- A split that is worth its shares in a commodity: the security of its account, and not its currency. -/
def InShares (ledger : Ledger α J) (base : Option Commodity) (id : SplitId) : Prop :=
  ∃ holder, ledger.holder? id = some holder ∧ ∃ commodity, base = some commodity ∧
    holder.currency ≠ commodity ∧ holder.security = some commodity

/-- A split that no worth can be set of in a commodity: one that is not expressed in it, or that is
expressed by its price and has a price of zero. -/
def Inert [Scalar α] (ledger : Ledger α J) (base : Option Commodity) (id : SplitId) : Prop :=
  ledger.Inexpressible base id ∨ ¬ ledger.InShares base id ∧ Scalar.isZero (ledger.price id) = true

section Deciding

variable (ledger : Ledger α J) (base : Option Commodity) (id : SplitId)

instance : Decidable (ledger.IsOrphan id) :=
  inferInstanceAs (Decidable (ledger.enforces = true ∧ ledger.accountOf? id = none))

instance : Decidable (ledger.Inexpressible base id) :=
  inferInstanceAs (Decidable (∃ account ∈ ledger.accountOf? id,
    ∀ holder ∈ ledger.account? account, ¬ holder.Expresses ledger.enforces base))

instance : Decidable (ledger.InShares base id) :=
  inferInstanceAs (Decidable (∃ holder ∈ ledger.holder? id, ∃ commodity ∈ base,
    holder.currency ≠ commodity ∧ holder.security = some commodity))

instance [Scalar α] : Decidable (ledger.Inert base id) :=
  inferInstanceAs (Decidable (ledger.Inexpressible base id ∨
    ¬ ledger.InShares base id ∧ Scalar.isZero (ledger.price id) = true))

end Deciding

variable {ledger : Ledger α J} {id : SplitId} {split : Split α} {base : Option Commodity}
  {valuation : Valuation}

/-- How a split is expressed tells of its account. -/
theorem valuation_tells (isSplit : ledger.split? id = some split)
    (valued : ledger.valuation id split base = .ok valuation) :
    ¬ ledger.IsOrphan id ∧ (valuation = .inexpressible ↔ ledger.Inexpressible base id) ∧
      (valuation = .shares ↔ ledger.InShares base id) := by
  obtain ⟨place, found, valued⟩ := bind_eq_ok_iff.mp valued
  have held := holder?_of_accountOf isSplit found
  have within := accountOf?_of_accountOf isSplit found
  cases place with
  | none =>
    dsimp only at valued
    split at valued
    · cases valued
    · rename_i tolerant
      cases valued
      simp [IsOrphan, Inexpressible, InShares, tolerant, within, held]
  | some place =>
    obtain ⟨-, known⟩ := accountOf_eq_some found
    cases valued
    simp only [IsOrphan, Inexpressible, InShares, within, held, Account.valuation_eq_inexpressible_iff,
      Account.valuation_eq_shares_iff]
    simp [known]

/-- A split that is no orphan and not inexpressible is expressed. -/
theorem exists_valuation (isSplit : ledger.split? id = some split) (housed : ¬ ledger.IsOrphan id)
    (expressed : ¬ ledger.Inexpressible base id) :
    ∃ valuation, ledger.valuation id split base = .ok valuation ∧ valuation ≠ .inexpressible := by
  have within := accountOf?_eq isSplit
  suffices succeeds : ∃ valuation, ledger.valuation id split base = .ok valuation by
    obtain ⟨valuation, valued⟩ := succeeds
    exact ⟨valuation, valued, mt (valuation_tells isSplit valued).2.1.mp expressed⟩
  cases inside : split.account with
  | none =>
    rw [inside] at within
    have tolerant : ledger.enforces = false := by simpa [IsOrphan, within] using housed
    exact ⟨.priced, by simp [Ledger.valuation, accountOf, inside, ok_bind, tolerant]⟩
  | some account =>
    rw [inside] at within
    cases known : ledger.account? account with
    | none => exact absurd ⟨account, within, by simp [known]⟩ expressed
    | some holder =>
      exact ⟨_, by simp only [Ledger.valuation, accountOf, inside, known, ok_bind]; rfl⟩

/-! ## Worths that are added up -/

section Sums

variable [Scalar α] {owner : TransactionId} {worth start sum : α} {splits : List SplitId}

/-- A split is worth something in a sum exactly if it is expressed. -/
theorem exists_worthOf_iff (isSplit : ledger.split? id = some split) :
    (∃ worth, ledger.worthOf owner base id = .ok worth) ↔
      ¬ ledger.IsOrphan id ∧ ¬ ledger.Inexpressible base id := by
  constructor
  · rintro ⟨worth, valued⟩
    obtain ⟨again, valuation, isAgain, isValuation, isWorth⟩ := worthOf_eq_ok_iff.mp valued
    obtain ⟨housed, inexpressible, -⟩ := valuation_tells isAgain isValuation
    refine ⟨housed, mt inexpressible.mpr ?_⟩
    rintro rfl
    cases isWorth
  · rintro ⟨housed, expressed⟩
    obtain ⟨valuation, valued, expresses⟩ := exists_valuation isSplit housed expressed
    cases valuation with
    | priced => exact ⟨_, worthOf_eq_ok_iff.mpr ⟨split, .priced, isSplit, valued, rfl⟩⟩
    | shares => exact ⟨_, worthOf_eq_ok_iff.mpr ⟨split, .shares, isSplit, valued, rfl⟩⟩
    | inexpressible => exact absurd rfl expresses

/-- Worths are added from the left, and each has to be there. -/
theorem addWorths_eq_ok_iff_foldl : ledger.addWorths owner base start splits = .ok sum ↔
    ∃ worths, List.Forall₂ (fun entry worth => ledger.worthOf owner base entry = .ok worth) splits worths ∧
      worths.foldl (· + ·) start = sum := by
  induction splits generalizing start with
  | nil => simp [addWorths]
  | cons entry rest ih =>
    rw [addWorths_cons, bind_eq_ok_iff]
    constructor
    · rintro ⟨worth, valued, added⟩
      obtain ⟨worths, others, total⟩ := ih.mp added
      exact ⟨worth :: worths, .cons valued others, total⟩
    · rintro ⟨_ | ⟨worth, worths⟩, all, total⟩
      · cases all
      · obtain ⟨valued, others⟩ := List.forall₂_cons.mp all
        exact ⟨worth, valued, ih.mpr ⟨worths, others, total⟩⟩

theorem exists_addWorths_iff : (∃ sum, ledger.addWorths owner base start splits = .ok sum) ↔
    ∀ entry ∈ splits, ∃ worth, ledger.worthOf owner base entry = .ok worth := by
  induction splits generalizing start with
  | nil => simp [addWorths]
  | cons entry rest ih =>
    simp only [addWorths_cons, bind_eq_ok_iff, List.forall_mem_cons]
    constructor
    · rintro ⟨sum, worth, valued, added⟩
      exact ⟨⟨worth, valued⟩, ih.mp ⟨sum, added⟩⟩
    · rintro ⟨⟨worth, valued⟩, others⟩
      obtain ⟨sum, added⟩ := ih.mpr others
      exact ⟨sum, worth, valued, added⟩

/-- The sum of a transaction is there exactly if every split in it is expressed, and adds up from the left
what each split is worth by itself. -/
structure Sums (ledger : Ledger α J) (owner : TransactionId) (skip : Option SplitId)
    (base : Option Commodity) (splits : List SplitId) : Prop where
  there : (∃ sum, ledger.transactionValue owner skip base = .ok sum) ↔
    ∀ entry ∈ splits, ¬ ledger.IsOrphan entry ∧ ¬ ledger.Inexpressible base entry
  added : ∀ sum, ledger.transactionValue owner skip base = .ok sum →
    ∃ worths, List.Forall₂ (fun entry worth => (splitWorth entry base ledger).result = .ok worth)
      splits worths ∧ worths.foldl (· + ·) 0 = sum

end Sums

end Ledger

/-! ## Worths that are asked and set -/

section Single

variable {α J : Type} [Scalar α] {ledger : Ledger α J} {id : SplitId} {split : Split α}
  {base : Option Commodity} {valuation : Valuation} {value : α}

open Ledger

namespace Action

/-- A split that is not expressed counts as zero. -/
theorem ends_splitWorth {property : Except Fault α → Ledger α J → Prop}
    (isSplit : ledger.split? id = some split) (valued : ledger.valuation id split base = .ok valuation) :
    (splitWorth id base).Ends ledger property ↔
      property (.ok ((valuation.worth? split).getD 0)) ledger := by
  simp only [splitWorth, ends_bind, ends_read, isSplit, ends_ask, valued]
  cases valuation.worth? split <;> exact .rfl

/-- Setting a worth is refused, or gives the split the amount that is found for it. -/
theorem ends_setSplitWorth_of {property : Except Fault Unit → Ledger α J → Prop}
    (refused : ∀ fault, property (.error fault) ledger)
    (sets : ∀ split valuation, ledger.split? id = some split →
      ledger.valuation id split base = .ok valuation →
      property (.ok ()) ((ledger.withAmount id (valuation.amountFor? split value)).mark id)) :
    (setSplitWorth id value base).Ends ledger property := by
  refine ends_finite_or refused ?_
  rw [ensureEditable_eq]
  refine ends_ask_or refused fun _ _ => ?_
  rw [ends_bind]
  cases found : ledger.split id with
  | error _ => simpa only [applyWorth, ends_bind, ends_ask, found] using refused _
  | ok split =>
    cases valued : ledger.valuation id split base with
    | error _ => simpa only [applyWorth, ends_bind, ends_ask, found, valued] using refused _
    | ok valuation =>
      rw [ends_applyWorth found valued]
      exact sets split valuation (split_eq_ok_iff.mp found) valued

end Action

namespace Ledger

theorem splitWorth_of_worthOf {owner : TransactionId} {worth : α}
    (valued : ledger.worthOf owner base id = .ok worth) :
    (splitWorth id base ledger).result = .ok worth := by
  obtain ⟨split, valuation, isSplit, isValuation, isWorth⟩ := worthOf_eq_ok_iff.mp valued
  suffices ends : (splitWorth id base).Ends ledger fun result _ => result = .ok worth from ends
  rw [ends_splitWorth isSplit isValuation, isWorth, Option.getD_some]

/-- There is no amount for a worth exactly if the split is inert. -/
theorem amountFor?_eq_none_iff (isSplit : ledger.split? id = some split)
    (valued : ledger.valuation id split base = .ok valuation) (value : α) :
    valuation.amountFor? split value = none ↔ ledger.Inert base id := by
  obtain ⟨-, inexpressible, shares⟩ := valuation_tells isSplit valued
  have price : ledger.price id = split.price := by simp [price, isSplit]
  rw [Inert, ← inexpressible, ← shares, price]
  cases valuation <;> simp [Valuation.amountFor?]

/-- Setting a worth changes no split but one, and not even that one if it is inert. -/
structure Sets (ledger : Ledger α J) (id : SplitId) (value : α) (base : Option Commodity) : Prop where
  others : ∀ other, other ≠ id →
    (setSplitWorth id value base ledger).ledger.split? other = ledger.split? other
  inert : (setSplitWorth id value base ledger).result = .ok () → ledger.Inert base id →
    (setSplitWorth id value base ledger).ledger.split? id = ledger.split? id

theorem sets (ledger : Ledger α J) (id : SplitId) (value : α) (base : Option Commodity) :
    ledger.Sets id value base := by
  constructor
  · intro other different
    suffices ends : (setSplitWorth id value base).Ends ledger fun _ after =>
        after.split? other = ledger.split? other from ends
    refine ends_setSplitWorth_of (fun _ => rfl) fun split valuation _ _ => ?_
    rw [split?_mark, split?_withAmount_of_ne different]
  · suffices ends : (setSplitWorth id value base).Ends ledger fun result after =>
        result = .ok () → ledger.Inert base id → after.split? id = ledger.split? id from ends
    refine ends_setSplitWorth_of (fun _ => nofun) fun split valuation isSplit valued _ inert => ?_
    rw [(amountFor?_eq_none_iff isSplit valued value).mpr inert, split?_mark, withAmount]

end Ledger

end Single

section Exact

open Ledger

variable {J : Type} {ledger : Ledger Rat J} {id : SplitId} {value : Rat} {base : Option Commodity}

/-- With exact arithmetic a split is worth afterwards what was set, and an inert one is worth nothing. -/
theorem Ledger.splitWorth_setSplitWorth
    (succeeds : (setSplitWorth id value base ledger).result = .ok ()) :
    (splitWorth id base (setSplitWorth id value base ledger).ledger).result =
      .ok (if ledger.Inert base id then 0 else value) := by
  suffices ends : (setSplitWorth id value base).Ends ledger fun result after => result = .ok () →
      (splitWorth id base after).result = .ok (if ledger.Inert base id then 0 else value) from
    ends succeeds
  refine ends_setSplitWorth_of (fun _ => nofun) fun split valuation isSplit valued _ => ?_
  have same : ledger.SameHoldings
      ((ledger.withAmount id (valuation.amountFor? split value)).mark id) :=
    withAmount_sameHoldings.trans (mark_alike _ id).sameValues.toSameHoldings
  obtain ⟨after, isAfter, within⟩ := same.split isSplit
  suffices ends : (splitWorth id base).Ends
      ((ledger.withAmount id (valuation.amountFor? split value)).mark id) fun result _ =>
        result = .ok (if ledger.Inert base id then 0 else value) from ends
  rw [ends_splitWorth isAfter (same.valuation within valued), Except.ok.injEq]
  rw [split?_mark] at isAfter
  cases finds : valuation.amountFor? split value with
  | some amount =>
    have able : ¬ ledger.Inert base id := by
      rw [← amountFor?_eq_none_iff isSplit valued value, finds]
      exact nofun
    rw [finds, split?_withAmount isSplit] at isAfter
    obtain rfl := Option.some.inj isAfter
    rw [Valuation.worth?_of_amountFor? finds, if_neg able, Option.getD_some]
  | none =>
    rw [finds, withAmount, isSplit] at isAfter
    obtain rfl := Option.some.inj isAfter
    rw [if_pos ((amountFor?_eq_none_iff isSplit valued value).mp finds)]
    cases valuation with
    | priced =>
      have free : split.price = 0 := by simpa [Valuation.amountFor?, Scalar.isZero_iff] using finds
      change split.amount * split.price = 0
      rw [free, mul_zero]
    | shares => cases finds
    | inexpressible => rfl

end Exact

namespace Ledger

theorem sums {α J : Type} [Scalar α] {ledger : Ledger α J} {owner : TransactionId}
    {transaction : Transaction} (owned : ledger.Owned)
    (isOwner : ledger.transaction? owner = some transaction) (skip : Option SplitId)
    (base : Option Commodity) :
    ledger.Sums owner skip base (transaction.splits.filter fun entry => skip ≠ some entry) := by
  have total (sum : α) : ledger.transactionValue owner skip base = .ok sum ↔
      ledger.addWorths owner base 0 (transaction.splits.filter fun entry => skip ≠ some entry) =
        .ok sum := by
    rw [transactionValue, transaction_eq_ok_iff.mpr isOwner, ok_bind]
  constructor
  · simp only [total, exists_addWorths_iff]
    refine forall₂_congr fun entry inside => ?_
    have named := (owned.mem_iff isOwner).mp (List.mem_filter.mp inside).1
    obtain ⟨split, isSplit, -⟩ := parent_eq_iff.mp named
    exact exists_worthOf_iff isSplit
  · intro sum valued
    obtain ⟨worths, each, adds⟩ := addWorths_eq_ok_iff_foldl.mp ((total sum).mp valued)
    exact ⟨worths, each.imp fun _ _ => splitWorth_of_worthOf, adds⟩

end Ledger

section Agreement

open Ledger

/-- In every ledger that can be reached, asking what a split is worth, adding up worths and setting one
follow the same rule. A sum is there exactly if every split in it has an account under enforcement and is
expressed in the commodity, and it adds up from the left what the splits are worth one by one. A worth
that was set is the one that is found, with exact arithmetic, unless the split is not expressed in the
commodity or is at a price of zero: then it stays as it was. No other split changes at all. -/
theorem Reachable.worths_agree :
    (∀ {α J : Type} [Scalar α] [Journal J α] {ledger : Ledger α J}, Reachable (fun _ => True) ledger →
      (∀ owner transaction skip base, ledger.transaction? owner = some transaction →
        ledger.Sums owner skip base (transaction.splits.filter fun entry => skip ≠ some entry)) ∧
      ∀ id value base, ledger.Sets id value base) ∧
    ∀ {J : Type} [Journal J Rat] {ledger : Ledger Rat J}, Reachable (fun _ => True) ledger →
      ∀ id value base, (setSplitWorth id value base ledger).result = .ok () →
        (splitWorth id base (setSplitWorth id value base ledger).ledger).result =
          .ok (if ledger.Inert base id then 0 else value) :=
  ⟨fun reached => ⟨fun _ _ skip base isOwner => sums reached.owned isOwner skip base, sets _⟩,
    fun _ _ _ _ => splitWorth_setSplitWorth⟩

/-- Between two accounts that have euros and a split in no account, euros are added up and set, and dollars
are not. -/
theorem Reachable.worths_agree_mixed :
    (∃ sum, mixed.transactionValue ⟨.ofNat 3⟩ (some ⟨.ofNat 6⟩) (some .euro) = .ok sum) ∧
    (¬ ∃ sum, mixed.transactionValue ⟨.ofNat 3⟩ none (some .dollar) = .ok sum) ∧
    (splitWorth ⟨.ofNat 2⟩ (some .euro)
      (setSplitWorth ⟨.ofNat 2⟩ 7 (some .euro) mixed).ledger).result = .ok 7 ∧
    (setSplitWorth ⟨.ofNat 5⟩ 7 (some .dollar) mixed).ledger.split? ⟨.ofNat 5⟩ =
      mixed.split? ⟨.ofNat 5⟩ := by
  have reached : Reachable (fun _ => True) mixed :=
    (Reachable.start _ _).after _ (fun _ _ => trivial) (by decide +kernel)
  have lists : (mixed.transaction? ⟨.ofNat 3⟩).map (·.splits) =
      some [⟨.ofNat 2⟩, ⟨.ofNat 5⟩, ⟨.ofNat 6⟩] := by decide +kernel
  obtain ⟨transaction, isOwner, listed⟩ := Option.map_eq_some_iff.mp lists
  obtain ⟨sums, sets⟩ := Reachable.worths_agree.1 reached
  refine ⟨?_, ?_, ?_, ?_⟩
  · rw [(sums _ _ _ _ isOwner).there, listed]
    decide +kernel
  · rw [(sums _ _ _ _ isOwner).there, listed]
    decide +kernel
  · rw [Reachable.worths_agree.2 reached _ _ _ (by decide +kernel)]
    decide +kernel
  · exact (sets _ _ _).inert (by decide +kernel) (by decide +kernel)

end Agreement

end DoubleEntry
