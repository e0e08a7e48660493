import DoubleEntry.Proofs.Concordance
import DoubleEntry.Proofs.Undamaged

/-! # The common commodity as an intersection

The search for a common commodity narrows two slots step by step. What it finds is what a plain
intersection gives: of the commodities of one account, those that the account of every other split has,
the currency of the account before its security. So whether the search succeeds depends neither on the
order of the splits nor on the account that it starts from.
-/

namespace DoubleEntry

/-- The one of some commodities that an account prefers: its currency, or else its security. -/
def Account.Prefers (account : Account) (among : Set Commodity) (commodity : Commodity) : Prop :=
  account.currency ∈ among ∧ commodity = account.currency ∨
    account.currency ∉ among ∧ account.security = some commodity ∧ commodity ∈ among

theorem Account.Prefers.unique {account : Account} {among : Set Commodity} {one other : Commodity}
    (prefers : account.Prefers among one) (prefersToo : account.Prefers among other) : one = other := by
  rcases prefers with ⟨first, rfl⟩ | ⟨notFirst, security, -⟩ <;>
    rcases prefersToo with ⟨firstToo, rfl⟩ | ⟨notFirstToo, securityToo, -⟩
  · rfl
  · exact absurd first notFirstToo
  · exact absurd firstToo notFirst
  · exact Option.some.inj (security.symm.trans securityToo)

namespace Ledger

variable {α J : Type}

/-- The commodities of an account that the accounts of all splits of a list have as well. -/
def common (ledger : Ledger α J) (splits : List SplitId) (holder : Account) : Set Commodity :=
  {commodity | holder.Has commodity ∧
    ∀ entry ∈ splits, ∀ other, ledger.holder? entry = some other → other.Has commodity}

/-- All splits of a list are in accounts. -/
def AllHeld (ledger : Ledger α J) (splits : List SplitId) : Prop :=
  ∀ entry ∈ splits, (ledger.accountOf? entry).isSome

/-- The first split of a list that is in no account, where that is a fault. -/
def firstOrphan? (ledger : Ledger α J) (splits : List SplitId) : Option SplitId :=
  splits.find? fun entry => ledger.enforces && (ledger.accountOf? entry).isNone

variable {ledger : Ledger α J} {owner : TransactionId} {transaction : Transaction}
  {trigger entry : SplitId} {split : Split α} {account : AccountId} {holder : Account}
  {splits : List SplitId} {commodity : Commodity} {base : Option Commodity} {fault : Fault}

theorem exists_prefers (some? : (ledger.common splits holder).Nonempty) :
    ∃ commodity, holder.Prefers (ledger.common splits holder) commodity := by
  obtain ⟨commodity, inside⟩ := some?
  by_cases first : holder.currency ∈ ledger.common splits holder
  · exact ⟨holder.currency, .inl ⟨first, rfl⟩⟩
  · rcases inside.1 with currency | security
    · exact absurd (currency ▸ inside) first
    · exact ⟨commodity, .inr ⟨first, security, inside⟩⟩

theorem mem_of_prefers (prefers : holder.Prefers (ledger.common splits holder) commodity) :
    commodity ∈ ledger.common splits holder := by
  rcases prefers with ⟨inside, rfl⟩ | ⟨-, -, inside⟩
  · exact inside
  · exact inside

theorem common_congr {others : List SplitId} (same : ∀ entry, entry ∈ others ↔ entry ∈ splits) :
    ledger.common others holder = ledger.common splits holder := by
  simp only [common, same]

/-- An account of the list shares what all accounts of the list share. -/
theorem mem_common_iff_of_listed (listed : entry ∈ splits) (held : ledger.holder? entry = some holder) :
    commodity ∈ ledger.common splits holder ↔
      ∀ entry ∈ splits, ∀ other, ledger.holder? entry = some other → other.Has commodity :=
  ⟨fun inside => inside.2, fun all => ⟨all entry listed holder held, all⟩⟩

/-- All accounts of the list share the same. -/
theorem common_eq_of_listed {another : SplitId} {other : Account} (listed : entry ∈ splits)
    (held : ledger.holder? entry = some holder) (listedToo : another ∈ splits)
    (heldToo : ledger.holder? another = some other) :
    ledger.common splits other = ledger.common splits holder := by
  ext commodity
  rw [mem_common_iff_of_listed listed held, mem_common_iff_of_listed listedToo heldToo]

/-! ## Splits that have a place -/

/-- A split that exists and is in no account or in one of the book. -/
def Placed (ledger : Ledger α J) (entry : SplitId) : Prop :=
  ∃ split place, ledger.split? entry = some split ∧ ledger.accountOf entry split = .ok place

theorem accountOf?_of_accountOf {place : Option (AccountId × Account)}
    (isSplit : ledger.split? entry = some split) (found : ledger.accountOf entry split = .ok place) :
    ledger.accountOf? entry = place.map Prod.fst := by
  rw [accountOf?_eq isSplit]
  rcases place with _ | ⟨account, holder⟩
  · unfold accountOf at found
    cases within : split.account with
    | none => rfl
    | some account =>
      rw [within] at found
      dsimp only at found
      split at found <;> cases found
  · exact (accountOf_eq_some found).1

theorem Resolves.placed (resolves : ledger.Resolves) (live : (ledger.split? entry).isSome) :
    ledger.Placed entry := by
  obtain ⟨split, isSplit⟩ := Option.isSome_iff_exists.mp live
  cases found : ledger.accountOf entry split with
  | ok place => exact ⟨split, place, isSplit, found⟩
  | error fault =>
    have expected := resolves.accountOf isSplit fault found
    unfold Ledger.accountOf at found
    split at found
    · cases found
    · split at found
      · cases found
      · cases found
        cases expected

/-- A split accepts what its account has, if it has one or need not have one. -/
theorem accepts_iff (placed : ledger.Placed entry) : ledger.Accepts entry commodity ↔
    (∀ other, ledger.holder? entry = some other → other.Has commodity) ∧
      (ledger.enforces = true → (ledger.accountOf? entry).isSome) := by
  obtain ⟨split, place, isSplit, found⟩ := placed
  have held := holder?_of_accountOf isSplit found
  have within := accountOf?_of_accountOf isSplit found
  rw [held, within]
  constructor
  · rintro ⟨again, isAgain, accepts⟩
    obtain rfl : split = again := Option.some.inj (isSplit.symm.trans isAgain)
    rw [found] at accepts
    rcases accepts with ⟨same, tolerant⟩ | ⟨account, holder, same, has⟩
    · cases same
      exact ⟨nofun, fun enforced => by simp [tolerant] at enforced⟩
    · cases same
      exact ⟨fun _ other => Option.some.inj other ▸ has, fun _ => rfl⟩
  · rintro ⟨has, housed⟩
    refine ⟨split, isSplit, ?_⟩
    rcases place with _ | ⟨account, holder⟩
    · refine .inl ⟨found, ?_⟩
      by_contra enforced
      cases housed (by simpa using enforced)
    · exact .inr ⟨account, holder, found, has holder rfl⟩

theorem firstOrphan?_of_tolerant (tolerant : ledger.enforces = false) :
    ledger.firstOrphan? splits = none := by
  simp [firstOrphan?, tolerant]

theorem orphan_of_firstOrphan? (first : ledger.firstOrphan? splits = some entry) :
    entry ∈ splits ∧ ledger.accountOf? entry = none := by
  have orphaned := List.find?_some first
  simp only [Bool.and_eq_true, Option.isNone_iff_eq_none] at orphaned
  exact ⟨List.mem_of_find?_eq_some first, orphaned.2⟩

/-! ## Narrowing -/

/-- A scan fails at an account that has none of the commodities left, or at the first split that should
be in an account and is not. -/
theorem fault_of_narrowBy {start : AccountId × Account} {candidate : Candidate}
    (placed : ∀ entry ∈ splits, ledger.Placed entry)
    (failed : ledger.narrowBy start candidate splits = .error fault) :
    ((∃ base other, fault = .noCommonCommodity base other) ∧
      ¬ ∃ commodity, candidate.Offers commodity ∧
        ∀ entry ∈ splits, ∀ other, ledger.holder? entry = some other → other.Has commodity) ∨
    ∃ entry, ledger.firstOrphan? splits = some entry ∧ fault = .orphan entry := by
  induction splits generalizing candidate with
  | nil => cases failed
  | cons entry rest ih =>
    obtain ⟨split, place, isSplit, found⟩ := placed entry List.mem_cons_self
    have later : ∀ other ∈ rest, ledger.Placed other :=
      fun other inside => placed other (List.mem_cons_of_mem entry inside)
    have within := accountOf?_of_accountOf isSplit found
    rw [narrowBy, split_eq_ok_iff.mpr isSplit, ok_bind, found, ok_bind] at failed
    rcases place with _ | ⟨account, holder⟩
    · dsimp only at failed
      split at failed
      · rename_i enforced
        cases failed
        exact .inr ⟨entry, by simp [firstOrphan?, enforced, within], rfl⟩
      · rename_i tolerant
        rcases ih later failed with ⟨mixed, lacks⟩ | ⟨orphan, first, rfl⟩
        · refine .inl ⟨mixed, ?_⟩
          rintro ⟨commodity, offered, has⟩
          refine lacks ⟨commodity, offered, ?_⟩
          exact fun other inside => has other (List.mem_cons_of_mem entry inside)
        · refine .inr ⟨orphan, ?_, rfl⟩
          rw [firstOrphan?] at first ⊢
          rw [List.find?_cons_of_neg (by simp [tolerant]), first]
    · have held := holder?_of_accountOf isSplit found
      dsimp only at failed
      split at failed
      · rename_i exhausted
        cases failed
        refine .inl ⟨⟨_, _, rfl⟩, ?_⟩
        rintro ⟨commodity, offered, has⟩
        have left := (offered.narrow (has entry List.mem_cons_self holder held)).remains
        simp [left] at exhausted
      · rcases ih later failed with ⟨mixed, lacks⟩ | ⟨orphan, first, rfl⟩
        · refine .inl ⟨mixed, ?_⟩
          rintro ⟨commodity, offered, has⟩
          refine lacks ⟨commodity, ?_, ?_⟩
          · exact offered.narrow (has entry List.mem_cons_self holder held)
          · exact fun other inside => has other (List.mem_cons_of_mem entry inside)
        · refine .inr ⟨orphan, ?_, rfl⟩
          rw [firstOrphan?] at first ⊢
          rw [List.find?_cons_of_neg (by simp [within]), first]

/-! ## The commodity that is found -/

section Finding

variable (isOwner : ledger.transaction? owner = some transaction)
  (isTrigger : ledger.split? trigger = some split)
  (within : ledger.accountOf trigger split = .ok (some (account, holder)))
  (placed : ∀ entry ∈ transaction.splits, ledger.Placed entry)

include isOwner isTrigger within placed

/-- A common commodity makes the search succeed, and with the currency of the account if it is that. -/
theorem commonCommodity_of_mem (inside : commodity ∈ ledger.common transaction.splits holder)
    (housed : ledger.enforces = true → ledger.AllHeld transaction.splits) :
    ∃ base, ledger.commonCommodity owner trigger = .ok base ∧
      (holder.currency = commodity → base = some commodity) :=
  commonCommodity_of_accepts isOwner isTrigger within inside.1 fun entry listed =>
    (accepts_iff (placed entry listed)).mpr
      ⟨inside.2 entry listed, fun enforced => housed enforced entry listed⟩

theorem prefers_of_commonCommodity (found : ledger.commonCommodity owner trigger = .ok base) :
    ∃ commodity, base = some commodity ∧
      holder.Prefers (ledger.common transaction.splits holder) commodity ∧
      (ledger.enforces = true → ledger.AllHeld transaction.splits) := by
  obtain ⟨commodity, rfl, has⟩ := has_of_commonCommodity isTrigger within found
  have each := fun entry inside => (accepts_iff (placed entry inside)).mp
    (accepts_of_found isOwner found entry inside)
  have inside : commodity ∈ ledger.common transaction.splits holder :=
    ⟨has, fun entry listed => (each entry listed).1⟩
  have housed : ledger.enforces = true → ledger.AllHeld transaction.splits :=
    fun enforced entry listed => (each entry listed).2 enforced
  refine ⟨commodity, rfl, ?_, housed⟩
  by_cases first : holder.currency ∈ ledger.common transaction.splits holder
  · obtain ⟨again, foundAgain, prefers⟩ :=
      commonCommodity_of_mem isOwner isTrigger within placed first housed
    have same : some commodity = again := Except.ok.inj (found.symm.trans foundAgain)
    exact .inl ⟨first, Option.some.inj (same.trans (prefers rfl))⟩
  · rcases has with currency | security
    · exact absurd (currency ▸ inside) first
    · exact .inr ⟨first, security, inside⟩

/-- What is found is the commodity that the account of the trigger prefers among the common ones, as long
as every split is in an account that has to be in one. -/
theorem commonCommodity_eq_ok_iff : ledger.commonCommodity owner trigger = .ok base ↔
    ∃ commodity, base = some commodity ∧
      holder.Prefers (ledger.common transaction.splits holder) commodity ∧
      (ledger.enforces = true → ledger.AllHeld transaction.splits) := by
  constructor
  · exact prefers_of_commonCommodity isOwner isTrigger within placed
  · rintro ⟨commodity, rfl, prefers, housed⟩
    obtain ⟨again, found, -⟩ :=
      commonCommodity_of_mem isOwner isTrigger within placed (mem_of_prefers prefers) housed
    obtain ⟨other, rfl, prefersToo, -⟩ :=
      prefers_of_commonCommodity isOwner isTrigger within placed found
    rw [found, prefers.unique prefersToo]

/-- What is not found is not there, or a split that should be in an account is not. -/
theorem fault_of_commonCommodity (failed : ledger.commonCommodity owner trigger = .error fault) :
    ((∃ base other, fault = .noCommonCommodity base other) ∧
      ledger.common transaction.splits holder = ∅) ∨
    ∃ entry, ledger.firstOrphan? transaction.splits = some entry ∧ fault = .orphan entry := by
  rw [commonCommodity, transaction_eq_ok_iff.mpr isOwner, ok_bind, split_eq_ok_iff.mpr isTrigger, ok_bind,
    within, ok_bind] at failed
  dsimp only at failed
  cases narrowed : ledger.narrowBy (account, holder) (.seed holder.currency holder.security)
      transaction.splits with
  | ok final =>
    rw [narrowed] at failed
    cases failed
  | error reason =>
    rw [narrowed, error_bind] at failed
    obtain rfl : reason = fault := Except.error.inj failed
    rcases fault_of_narrowBy placed narrowed with ⟨mixed, lacks⟩ | orphaned
    · refine .inl ⟨mixed, ?_⟩
      refine Set.eq_empty_of_forall_notMem fun commodity inside => lacks ⟨commodity, ?_, inside.2⟩
      exact inside.1.imp (congrArg some) id
    · exact .inr orphaned

/-- Something is found if something is common and every split is in an account that has to be in one. -/
theorem exists_commonCommodity_iff : (∃ base, ledger.commonCommodity owner trigger = .ok base) ↔
    (ledger.common transaction.splits holder).Nonempty ∧
      (ledger.enforces = true → ledger.AllHeld transaction.splits) := by
  constructor
  · rintro ⟨base, found⟩
    obtain ⟨commodity, -, prefers, housed⟩ :=
      (commonCommodity_eq_ok_iff isOwner isTrigger within placed).mp found
    exact ⟨⟨commodity, mem_of_prefers prefers⟩, housed⟩
  · rintro ⟨some?, housed⟩
    obtain ⟨commodity, prefers⟩ := exists_prefers some?
    exact ⟨some commodity, (commonCommodity_eq_ok_iff isOwner isTrigger within placed).mpr
      ⟨commodity, rfl, prefers, housed⟩⟩

/-- Face value is never found from a split in an account. -/
theorem exists_some_iff : (∃ commodity, ledger.commonCommodity owner trigger = .ok (some commodity)) ↔
    ∃ base, ledger.commonCommodity owner trigger = .ok base := by
  refine ⟨fun ⟨commodity, found⟩ => ⟨some commodity, found⟩, fun ⟨base, found⟩ => ?_⟩
  obtain ⟨commodity, rfl, -⟩ := (commonCommodity_eq_ok_iff isOwner isTrigger within placed).mp found
  exact ⟨commodity, found⟩

/-- Without enforcement, nothing being common is the only reason to find nothing. -/
theorem exists_mixed_iff (tolerant : ledger.enforces = false) :
    (∃ base other, ledger.commonCommodity owner trigger = .error (.noCommonCommodity base other)) ↔
      ledger.common transaction.splits holder = ∅ := by
  constructor
  · rintro ⟨base, other, failed⟩
    rcases fault_of_commonCommodity isOwner isTrigger within placed failed with
      ⟨-, empty⟩ | ⟨entry, -, differs⟩
    · exact empty
    · cases differs
  · intro empty
    cases outcome : ledger.commonCommodity owner trigger with
    | ok base =>
      have some? := ((exists_commonCommodity_iff isOwner isTrigger within placed).mp ⟨base, outcome⟩).1
      exact absurd empty some?.ne_empty
    | error fault =>
      rcases fault_of_commonCommodity isOwner isTrigger within placed outcome with
        ⟨⟨base, other, rfl⟩, -⟩ | ⟨entry, first, -⟩
      · exact ⟨base, other, rfl⟩
      · rw [firstOrphan?_of_tolerant tolerant] at first
        cases first

/-- Whatever is not found is not found for one of two reasons. -/
theorem exists_orphan_or_mixed
    (nothing : ¬ ∃ base, ledger.commonCommodity owner trigger = .ok base) :
    (∃ entry ∈ transaction.splits, ledger.accountOf? entry = none ∧
      ledger.commonCommodity owner trigger = .error (.orphan entry)) ∨
    ∃ base other, ledger.commonCommodity owner trigger = .error (.noCommonCommodity base other) := by
  cases outcome : ledger.commonCommodity owner trigger with
  | ok base => exact absurd ⟨base, outcome⟩ nothing
  | error fault =>
    rcases fault_of_commonCommodity isOwner isTrigger within placed outcome with
      ⟨⟨base, other, rfl⟩, -⟩ | ⟨entry, first, rfl⟩
    · exact .inr ⟨base, other, rfl⟩
    · obtain ⟨inside, orphaned⟩ := orphan_of_firstOrphan? first
      exact .inl ⟨entry, inside, orphaned, rfl⟩

/-- If a single commodity is common, it is found unless a split that should be in an account is not. -/
theorem commonCommodity_of_singleton {commodity : Commodity}
    (single : ledger.common transaction.splits holder = {commodity}) :
    ledger.commonCommodity owner trigger = match ledger.firstOrphan? transaction.splits with
      | some entry => .error (.orphan entry)
      | none => .ok (some commodity) := by
  cases outcome : ledger.commonCommodity owner trigger with
  | ok base =>
    obtain ⟨found, rfl, prefers, housed⟩ :=
      (commonCommodity_eq_ok_iff isOwner isTrigger within placed).mp outcome
    obtain rfl : found = commodity := by
      have inside := mem_of_prefers prefers
      rwa [single] at inside
    cases first : ledger.firstOrphan? transaction.splits with
    | none => rfl
    | some entry =>
      obtain ⟨inside, orphaned⟩ := orphan_of_firstOrphan? first
      have enforced : ledger.enforces = true := by
        by_contra tolerant
        rw [firstOrphan?_of_tolerant (by simpa using tolerant)] at first
        cases first
      have isIn := housed enforced entry inside
      rw [orphaned] at isIn
      cases isIn
  | error fault =>
    rcases fault_of_commonCommodity isOwner isTrigger within placed outcome with
      ⟨-, empty⟩ | ⟨entry, first, rfl⟩
    · rw [single] at empty
      exact absurd empty (Set.singleton_ne_empty commodity)
    · rw [first]

end Finding

/-- What the search for a common commodity finds, told by intersection. -/
structure Intersects (ledger : Ledger α J) (owner : TransactionId) (transaction : Transaction)
    (trigger : SplitId) (holder : Account) : Prop where
  /-- Of the common commodities, the one that is found is the currency of the account or else its
  security. -/
  found : ∀ base, ledger.commonCommodity owner trigger = .ok base ↔
    ∃ commodity, base = some commodity ∧
      holder.Prefers (ledger.common transaction.splits holder) commodity ∧
      (ledger.enforces = true → ledger.AllHeld transaction.splits)
  tolerant : ledger.enforces = false →
    ((∃ commodity, ledger.commonCommodity owner trigger = .ok (some commodity)) ↔
      (ledger.common transaction.splits holder).Nonempty) ∧
    ((∃ base other, ledger.commonCommodity owner trigger = .error (.noCommonCommodity base other)) ↔
      ledger.common transaction.splits holder = ∅)
  enforced : ledger.enforces = true →
    ((∃ commodity, ledger.commonCommodity owner trigger = .ok (some commodity)) ↔
      (ledger.common transaction.splits holder).Nonempty ∧ ledger.AllHeld transaction.splits) ∧
    (¬ ((ledger.common transaction.splits holder).Nonempty ∧ ledger.AllHeld transaction.splits) →
      (∃ entry ∈ transaction.splits, ledger.accountOf? entry = none ∧
        ledger.commonCommodity owner trigger = .error (.orphan entry)) ∨
      ∃ base other, ledger.commonCommodity owner trigger = .error (.noCommonCommodity base other))
  /-- The order of the splits decides neither whether a commodity is found nor which. -/
  reordered : ∀ splits, splits.Perm transaction.splits → ∀ base,
    (ledger.modifyTransaction owner fun entry => { entry with splits }).commonCommodity owner trigger =
      .ok base ↔ ledger.commonCommodity owner trigger = .ok base
  /-- Which split of an account the search starts from does not decide whether a commodity is found. -/
  retriggered : trigger ∈ transaction.splits → ∀ other ∈ transaction.splits,
    (ledger.accountOf? other).isSome → ((∃ base, ledger.commonCommodity owner other = .ok base) ↔
      ∃ base, ledger.commonCommodity owner trigger = .ok base)
  /-- Nor what is found, if all accounts have one commodity in common and no other. -/
  determined : (∃! commodity, ∀ entry ∈ transaction.splits, ∀ other,
      ledger.holder? entry = some other → other.Has commodity) →
    trigger ∈ transaction.splits → ∀ other ∈ transaction.splits, (ledger.accountOf? other).isSome →
      ledger.commonCommodity owner other = ledger.commonCommodity owner trigger

namespace Placed

/-- A split with an account that has its place is in an account of the book. -/
theorem accountOf (placed : ledger.Placed trigger) (within : ledger.accountOf? trigger = some account) :
    ∃ split holder, ledger.split? trigger = some split ∧
      ledger.accountOf trigger split = .ok (some (account, holder)) ∧
      ledger.account? account = some holder := by
  obtain ⟨split, place, isSplit, found⟩ := placed
  rw [accountOf?_of_accountOf isSplit found] at within
  obtain ⟨⟨account, holder⟩, rfl, rfl⟩ := Option.map_eq_some_iff.mp within
  exact ⟨split, holder, isSplit, found, (accountOf_eq_some found).2⟩

/-- An account of another split of a list shares what this one shares. -/
theorem exists_common_eq {other : SplitId} (placed : ledger.Placed other) (listed : trigger ∈ splits)
    (held : ledger.holder? trigger = some holder) (inside : other ∈ splits)
    (housed : (ledger.accountOf? other).isSome) :
    ∃ split account second, ledger.split? other = some split ∧
      ledger.accountOf other split = .ok (some (account, second)) ∧
      ledger.common splits second = ledger.common splits holder := by
  obtain ⟨account, within⟩ := Option.isSome_iff_exists.mp housed
  obtain ⟨split, second, isOther, inAccount, -⟩ := placed.accountOf within
  exact ⟨split, account, second, isOther, inAccount,
    common_eq_of_listed listed held inside (holder?_of_accountOf isOther inAccount)⟩

variable (isOwner : ledger.transaction? owner = some transaction)
  (placed : ∀ entry ∈ transaction.splits, ledger.Placed entry)

include isOwner placed

theorem commonCommodity_reordered (isTrigger : ledger.split? trigger = some split)
    (within : ledger.accountOf trigger split = .ok (some (account, holder)))
    (reordered : splits.Perm transaction.splits) :
    (ledger.modifyTransaction owner fun entry => { entry with splits }).commonCommodity owner trigger =
      .ok base ↔ ledger.commonCommodity owner trigger = .ok base := by
  have isNow : (ledger.modifyTransaction owner fun entry => { entry with splits }).transaction? owner =
      some { transaction with splits } := by
    rw [transaction?_modifyTransaction, if_pos rfl, isOwner, Option.map_some]
  have allHeld : ledger.AllHeld splits ↔ ledger.AllHeld transaction.splits := by
    simp only [AllHeld, reordered.mem_iff]
  have placedNow : ∀ entry ∈ splits, ledger.Placed entry :=
    fun entry inside => placed entry (reordered.mem_iff.mp inside)
  rw [commonCommodity_eq_ok_iff isOwner isTrigger within placed,
    commonCommodity_eq_ok_iff isNow isTrigger within placedNow, ← allHeld,
    ← common_congr fun entry => reordered.mem_iff]
  rfl

end Placed

end Ledger

open Ledger

/-- From a split in an account, the commodity that is found is the one that the account prefers among
those that the accounts of all splits of the transaction have. It is found if there is one; under
enforcement, if moreover all splits are in accounts. -/
theorem Reachable.commonCommodity_intersects {α J : Type} [Scalar α] [ZeroPriced α] [Journal J α]
    {ledger : Ledger α J} {owner : TransactionId} {transaction : Transaction} {trigger : SplitId}
    {account : AccountId} (reached : Reachable Deed.LeavesRegisters ledger)
    (isOwner : ledger.transaction? owner = some transaction)
    (within : ledger.accountOf? trigger = some account) :
    ∃ holder, ledger.account? account = some holder ∧
      ledger.Intersects owner transaction trigger holder := by
  have live : (ledger.split? trigger).isSome := by
    by_contra gone
    rw [Option.not_isSome_iff_eq_none] at gone
    rw [accountOf?, gone] at within
    cases within
  obtain ⟨split, holder, isTrigger, inAccount, held⟩ := (reached.resolves.placed live).accountOf within
  have placed : ∀ entry ∈ transaction.splits, ledger.Placed entry :=
    fun entry inside => reached.resolves.placed (reached.resolves.lists isOwner entry inside)
  have isHolder := holder?_of_accountOf isTrigger inAccount
  have found := exists_commonCommodity_iff isOwner isTrigger inAccount placed
  have named := exists_some_iff isOwner isTrigger inAccount placed
  refine ⟨holder, held, ?_⟩
  constructor
  case found => exact fun base => commonCommodity_eq_ok_iff isOwner isTrigger inAccount placed
  case tolerant =>
    intro tolerant
    rw [named, found]
    exact ⟨⟨fun both => both.1, fun some? => ⟨some?, by simp [tolerant]⟩⟩,
      exists_mixed_iff isOwner isTrigger inAccount placed tolerant⟩
  case enforced =>
    intro enforced
    rw [named, found]
    refine ⟨⟨fun both => ⟨both.1, both.2 enforced⟩, fun both => ⟨both.1, fun _ => both.2⟩⟩, ?_⟩
    intro lacks
    refine exists_orphan_or_mixed isOwner isTrigger inAccount placed fun success => lacks ?_
    exact ⟨(found.mp success).1, (found.mp success).2 enforced⟩
  case reordered =>
    exact fun splits reordered base =>
      Placed.commonCommodity_reordered isOwner placed isTrigger inAccount reordered
  case retriggered =>
    intro listed other inside housed
    obtain ⟨_, _, second, isOther, inOther, same⟩ :=
      (placed other inside).exists_common_eq listed isHolder inside housed
    rw [exists_commonCommodity_iff isOwner isOther inOther placed, same, found]
  case determined =>
    rintro ⟨commodity, all, unique⟩ listed other inside housed
    have single : ledger.common transaction.splits holder = {commodity} := by
      ext candidate
      rw [mem_common_iff_of_listed listed isHolder]
      exact ⟨unique candidate, fun same => same ▸ all⟩
    obtain ⟨_, _, second, isOther, inOther, same⟩ :=
      (placed other inside).exists_common_eq listed isHolder inside housed
    rw [commonCommodity_of_singleton isOwner isTrigger inAccount placed single,
      commonCommodity_of_singleton isOwner isOther inOther placed (same.trans single)]

/-- Of the dollars and euros of one account, only the euros are common where the other account has euros
alone; a split without an account does not matter, and either account decides on them. -/
theorem Reachable.commonCommodity_intersects_mixed :
    mixed.commonCommodity ⟨.ofNat 3⟩ ⟨.ofNat 2⟩ = .ok (some .euro) ∧
      mixed.commonCommodity ⟨.ofNat 3⟩ ⟨.ofNat 5⟩ = .ok (some .euro) := by
  have reached : Reachable Deed.LeavesRegisters mixed :=
    (Reachable.start _ _).after _ (by decide) (by decide +kernel)
  have listed : (mixed.transaction? ⟨.ofNat 3⟩).map (·.splits) =
      some [⟨.ofNat 2⟩, ⟨.ofNat 5⟩, ⟨.ofNat 6⟩] := by
    decide +kernel
  obtain ⟨transaction, isOwner, splits⟩ := Option.map_eq_some_iff.mp listed
  have within : mixed.accountOf? ⟨.ofNat 2⟩ = some ⟨.ofNat 0⟩ := by
    decide +kernel
  obtain ⟨holder, held, intersects⟩ := Reachable.commonCommodity_intersects reached isOwner within
  have one : (mixed.holder? ⟨.ofNat 2⟩).map (fun held => (held.currency, held.security)) =
      some (.dollar, some .euro) := by
    decide +kernel
  have other : (mixed.holder? ⟨.ofNat 5⟩).map (fun held => (held.currency, held.security)) =
      some (.euro, none) := by
    decide +kernel
  have nobody : mixed.holder? ⟨.ofNat 6⟩ = none := by
    decide +kernel
  obtain ⟨first, isFirst, ofFirst⟩ := Option.map_eq_some_iff.mp one
  obtain ⟨second, isSecond, ofSecond⟩ := Option.map_eq_some_iff.mp other
  have shared (commodity : Commodity) : (∀ entry ∈ transaction.splits, ∀ other,
      mixed.holder? entry = some other → other.Has commodity) ↔ commodity = .euro := by
    simp only [splits, List.forall_mem_cons, isFirst, isSecond, nobody, Option.some.injEq]
    simp only [Prod.mk.injEq] at ofFirst ofSecond
    simp [Account.Has, ofFirst, ofSecond]
    grind
  have common : mixed.common transaction.splits holder = {.euro} := by
    ext commodity
    have isHolder : mixed.holder? ⟨.ofNat 2⟩ = some holder := by
      rw [holder?, within, Option.bind_some, held]
    rw [mem_common_iff_of_listed (by simp [splits]) isHolder, shared, Set.mem_singleton_iff]
  have tolerant : mixed.enforces = false := by
    decide +kernel
  have same := intersects.determined ⟨.euro, (shared _).mpr rfl, fun other => (shared other).mp⟩
    (by simp [splits]) ⟨.ofNat 5⟩ (by simp [splits]) (by decide +kernel)
  obtain ⟨commodity, found⟩ := (intersects.tolerant tolerant).1.mpr (by simp [common])
  obtain ⟨again, named, prefers, -⟩ := (intersects.found _).mp found
  obtain rfl : commodity = .euro := by
    have inside := mem_of_prefers prefers
    rw [common] at inside
    exact (Option.some.inj named).trans inside
  exact ⟨found, same.trans found⟩

end DoubleEntry
