import DoubleEntry.Proofs.Valuing

/-! # The commodity that all accounts share

Narrowing drops a commodity as soon as an account does not have it, drops no other, and never adds one. So
the commodity that is left at the end is one that the account of every split has, and every split can be
expressed in it; and a commodity that all accounts have is left.
-/

namespace DoubleEntry

namespace Account

/-- Whether a commodity is the currency or the security of an account. -/
def Has (account : Account) (commodity : Commodity) : Prop :=
  account.currency = commodity ∨ account.security = some commodity

theorem Has.expressible {account : Account} {commodity : Commodity} (has : account.Has commodity)
    (enforced : Bool) : account.valuation enforced (some commodity) ≠ .inexpressible := by
  unfold valuation
  rcases has with currency | security
  · simp [currency]
  · by_cases currency : account.currency = commodity <;> simp [currency, security]

end Account

namespace Candidate

variable {candidate : Candidate} {currency commodity : Commodity} {security : Option Commodity}

/-- Whether a commodity is still in question. -/
def Offers (candidate : Candidate) (commodity : Commodity) : Prop :=
  candidate.primary = some commodity ∨ candidate.secondary = some commodity

/-- The slot in front is not empty unless both are. -/
def Fronted (candidate : Candidate) : Prop :=
  candidate.primary = none → candidate.secondary = none

theorem fronted_narrow (fronted : candidate.Fronted) : (candidate.narrow currency security).Fronted := by
  obtain ⟨_ | first, _ | second⟩ := candidate
  · exact fronted
  · exact absurd (fronted rfl) (by simp)
  · simp only [narrow]
    split <;> simp [Fronted]
  · simp only [narrow]
    split
    · simp [Fronted]
    · split
      · simp [Fronted]
      · split <;> simp [Fronted]

/-- What is left after an account was there before and is a commodity of that account. -/
theorem offers_of_narrow (fronted : candidate.Fronted)
    (left : (candidate.narrow currency security).Offers commodity) :
    candidate.Offers commodity ∧ (currency = commodity ∨ security = some commodity) := by
  obtain ⟨_ | first, _ | second⟩ := candidate
  · simp [narrow, Offers] at left
  · exact absurd (fronted rfl) (by simp)
  · simp only [narrow] at left
    split at left
    · rename_i matchesFirst
      obtain rfl : first = commodity := by simpa [Offers] using left
      exact ⟨.inl rfl, matchesFirst.imp Eq.symm id⟩
    · simp [Offers] at left
  · simp only [narrow] at left
    split at left
    · rename_i onlyFirst
      obtain rfl : first = commodity := by simpa [Offers] using left
      exact ⟨.inl rfl, onlyFirst.imp (fun h => h.1.symm) fun h => h.1⟩
    · rename_i notOnlyFirst
      split at left
      · rename_i onlySecond
        obtain rfl : second = commodity := by simpa [Offers] using left
        exact ⟨.inr rfl, onlySecond.imp (fun h => h.1.symm) fun h => h.1⟩
      · rename_i notOnlySecond
        split at left
        · rename_i someMatch
          -- A match that drops neither slot has the other slot on the opposite side.
          have crossed : (first = currency ∧ security = some second) ∨
              (security = some first ∧ second = currency) := by
            grind
          refine ⟨left, ?_⟩
          rcases left with isFirst | isSecond
          · obtain rfl : first = commodity := by simpa using isFirst
            exact crossed.imp (fun h => h.1.symm) fun h => h.1
          · obtain rfl : second = commodity := by simpa using isSecond
            exact crossed.symm.imp (fun h => h.2.symm) fun h => h.2
        · simp [Offers] at left

/-- A commodity stays in question if the account has it. -/
theorem Offers.narrow (offered : candidate.Offers commodity)
    (has : currency = commodity ∨ security = some commodity) :
    (candidate.narrow currency security).Offers commodity := by
  obtain ⟨_ | first, _ | second⟩ := candidate
  · exact offered
  · exact offered
  · obtain rfl : first = commodity := by simpa [Offers] using offered
    rw [Candidate.narrow, if_pos (has.imp Eq.symm id)]
    exact offered
  · simp only [Candidate.narrow]
    unfold Offers at offered ⊢
    grind

/-- The commodity in front stays there if the account has it. -/
theorem primary_narrow (inFront : candidate.primary = some commodity)
    (has : currency = commodity ∨ security = some commodity) :
    (candidate.narrow currency security).primary = some commodity := by
  obtain ⟨_ | first, _ | second⟩ := candidate
  · contradiction
  · contradiction
  · obtain rfl : first = commodity := Option.some.inj inFront
    rw [Candidate.narrow, if_pos (has.imp Eq.symm id)]
  · obtain rfl : first = commodity := Option.some.inj inFront
    simp only [Candidate.narrow]
    grind

theorem Offers.remains (offered : candidate.Offers commodity) : candidate.isExhausted = false := by
  rcases offered with inFront | behind
  · simp [isExhausted, inFront]
  · simp [isExhausted, behind]

theorem fronted_seed : (seed currency security).Fronted := nofun

theorem primary_of_remains (fronted : candidate.Fronted) (remains : candidate.isExhausted = false) :
    ∃ commodity, candidate.resolved = some commodity := by
  obtain ⟨_ | first, second⟩ := candidate
  · obtain rfl : second = none := fronted rfl
    simp [isExhausted] at remains
  · exact ⟨first, rfl⟩

end Candidate

namespace Ledger

variable {α J : Type} {ledger : Ledger α J} {start : AccountId × Account} {candidate final : Candidate}
  {commodity : Commodity} {owner : TransactionId} {trigger entry : SplitId} {base : Option Commodity}

/-- A split in an account of a commodity, or in none where that is accepted. -/
def Accepts (ledger : Ledger α J) (entry : SplitId) (commodity : Commodity) : Prop :=
  ∃ split, ledger.split? entry = some split ∧
    (ledger.accountOf entry split = .ok none ∧ ledger.enforces = false ∨
      ∃ account holder, ledger.accountOf entry split = .ok (some (account, holder)) ∧
        holder.Has commodity)

/-- Every split that was scanned accepts what is left. -/
theorem accepts_of_narrowBy {splits : List SplitId} (fronted : candidate.Fronted)
    (narrowed : ledger.narrowBy start candidate splits = .ok final) (left : final.Offers commodity) :
    candidate.Offers commodity ∧ ∀ entry ∈ splits, ledger.Accepts entry commodity := by
  induction splits generalizing candidate with
  | nil =>
    cases narrowed
    exact ⟨left, nofun⟩
  | cons entry rest ih =>
    obtain ⟨split, isSplit, narrowed⟩ := bind_eq_ok_iff.mp narrowed
    obtain ⟨place, found, narrowed⟩ := bind_eq_ok_iff.mp narrowed
    rw [split_eq_ok_iff] at isSplit
    cases place with
    | none =>
      dsimp only at narrowed
      split at narrowed
      · contradiction
      · rename_i tolerant
        obtain ⟨offered, accept⟩ := ih fronted narrowed
        refine ⟨offered, fun other inside => ?_⟩
        rcases List.mem_cons.mp inside with rfl | later
        · exact ⟨split, isSplit, .inl ⟨found, by simpa using tolerant⟩⟩
        · exact accept other later
    | some place =>
      dsimp only at narrowed
      split at narrowed
      · contradiction
      · obtain ⟨offered, accept⟩ := ih (Candidate.fronted_narrow fronted) narrowed
        obtain ⟨before, has⟩ := Candidate.offers_of_narrow fronted offered
        refine ⟨before, fun other inside => ?_⟩
        rcases List.mem_cons.mp inside with rfl | later
        · exact ⟨split, isSplit, .inr ⟨place.1, place.2, found, has⟩⟩
        · exact accept other later

theorem fronted_of_narrowBy {splits : List SplitId} (fronted : candidate.Fronted)
    (remains : candidate.isExhausted = false)
    (narrowed : ledger.narrowBy start candidate splits = .ok final) :
    final.Fronted ∧ final.isExhausted = false := by
  induction splits generalizing candidate with
  | nil =>
    cases narrowed
    exact ⟨fronted, remains⟩
  | cons entry rest ih =>
    obtain ⟨split, -, narrowed⟩ := bind_eq_ok_iff.mp narrowed
    obtain ⟨place, -, narrowed⟩ := bind_eq_ok_iff.mp narrowed
    cases place with
    | none =>
      dsimp only at narrowed
      split at narrowed
      · contradiction
      · exact ih fronted remains narrowed
    | some place =>
      dsimp only at narrowed
      split at narrowed
      · contradiction
      · rename_i more
        exact ih (Candidate.fronted_narrow fronted) (by simpa using more) narrowed

/-- What every split accepts is left, in front if it was in front. -/
theorem narrowBy_keeps {splits : List SplitId} (offered : candidate.Offers commodity)
    (accepts : ∀ entry ∈ splits, ledger.Accepts entry commodity) :
    ∃ final, ledger.narrowBy start candidate splits = .ok final ∧ final.Offers commodity ∧
      (candidate.primary = some commodity → final.primary = some commodity) := by
  induction splits generalizing candidate with
  | nil => exact ⟨candidate, rfl, offered, fun inFront => inFront⟩
  | cons entry rest ih =>
    have later : ∀ other ∈ rest, ledger.Accepts other commodity :=
      fun other inside => accepts other (List.mem_cons_of_mem entry inside)
    obtain ⟨split, isSplit, ⟨found, tolerant⟩ | ⟨account, holder, found, has⟩⟩ :=
      accepts entry List.mem_cons_self
    · rw [narrowBy, split_eq_ok_iff.mpr isSplit, ok_bind, found, ok_bind]
      dsimp only
      rw [if_neg (by simp [tolerant])]
      exact ih offered later
    · rw [narrowBy, split_eq_ok_iff.mpr isSplit, ok_bind, found, ok_bind]
      dsimp only
      rw [if_neg (by simp [(offered.narrow has).remains])]
      obtain ⟨final, narrowed, left, stays⟩ := ih (offered.narrow has) later
      exact ⟨final, narrowed, left, fun inFront => stays (Candidate.primary_narrow inFront has)⟩

/-- What a transaction is valued in: a commodity that each of its splits accepts, or face value where
that is accepted. -/
theorem accepts_of_commonCommodity {transaction : Transaction}
    (isOwner : ledger.transaction? owner = some transaction)
    (common : ledger.commonCommodity owner trigger = .ok base) :
    (base = none ∧ ledger.enforces = false) ∨
      ∃ commodity, base = some commodity ∧
        ∀ entry ∈ transaction.splits, ledger.Accepts entry commodity := by
  obtain ⟨again, isAgain, common⟩ := bind_eq_ok_iff.mp common
  obtain rfl : transaction = again :=
    Option.some.inj (isOwner.symm.trans (transaction_eq_ok_iff.mp isAgain))
  obtain ⟨split, isSplit, common⟩ := bind_eq_ok_iff.mp common
  obtain ⟨place, found, common⟩ := bind_eq_ok_iff.mp common
  cases place with
  | none =>
    dsimp only at common
    split at common
    · contradiction
    · rename_i tolerant
      exact .inl ⟨(Except.ok.inj common).symm, by simpa using tolerant⟩
  | some place =>
    obtain ⟨final, narrowed, resolved⟩ := bind_eq_ok_iff.mp common
    have seeded : (Candidate.seed place.2.currency place.2.security).Fronted := Candidate.fronted_seed
    obtain ⟨fronted, remains⟩ := fronted_of_narrowBy seeded rfl narrowed
    obtain ⟨commodity, primary⟩ := Candidate.primary_of_remains fronted remains
    refine .inr ⟨commodity, (Except.ok.inj resolved).symm.trans primary, ?_⟩
    exact (accepts_of_narrowBy seeded narrowed (.inl primary)).2

/-- The commodity that is found from a split is one of its account. -/
theorem has_of_commonCommodity {trigger : SplitId} {split : Split α} {account : AccountId}
    {holder : Account} (isSplit : ledger.split? trigger = some split)
    (within : ledger.accountOf trigger split = .ok (some (account, holder)))
    (common : ledger.commonCommodity owner trigger = .ok base) :
    ∃ commodity, base = some commodity ∧ holder.Has commodity := by
  obtain ⟨transaction, -, common⟩ := bind_eq_ok_iff.mp common
  rw [split_eq_ok_iff.mpr isSplit, ok_bind, within, ok_bind] at common
  obtain ⟨final, narrowed, resolved⟩ := bind_eq_ok_iff.mp common
  have seeded : (Candidate.seed holder.currency holder.security).Fronted := Candidate.fronted_seed
  obtain ⟨fronted, remains⟩ := fronted_of_narrowBy seeded rfl narrowed
  obtain ⟨commodity, primary⟩ := Candidate.primary_of_remains fronted remains
  refine ⟨commodity, (Except.ok.inj resolved).symm.trans primary, ?_⟩
  rcases (accepts_of_narrowBy seeded narrowed (.inl primary)).1 with inFront | behind
  · exact .inl (Option.some.inj inFront)
  · exact .inr behind

/-- A commodity that all splits accept is found, unless the account of the split that decides has
another one in front of it that all splits accept. -/
theorem commonCommodity_of_accepts {trigger : SplitId} {transaction : Transaction} {split : Split α}
    {account : AccountId} {holder : Account} (isOwner : ledger.transaction? owner = some transaction)
    (isSplit : ledger.split? trigger = some split)
    (within : ledger.accountOf trigger split = .ok (some (account, holder)))
    (has : holder.Has commodity)
    (accepts : ∀ entry ∈ transaction.splits, ledger.Accepts entry commodity) :
    ∃ base, ledger.commonCommodity owner trigger = .ok base ∧
      (holder.currency = commodity → base = some commodity) := by
  have offered : (Candidate.seed holder.currency holder.security).Offers commodity :=
    has.imp (congrArg some) id
  obtain ⟨final, narrowed, left, stays⟩ := narrowBy_keeps offered accepts
  refine ⟨final.resolved, ?_, fun currency => stays (congrArg some currency)⟩
  rw [commonCommodity, transaction_eq_ok_iff.mpr isOwner, ok_bind, split_eq_ok_iff.mpr isSplit, ok_bind,
    within, ok_bind]
  dsimp only
  rw [narrowed, ok_bind]

/-- Every split can be expressed in the commodity that its transaction is valued in. -/
theorem expressible_of_commonCommodity {transaction : Transaction} {split : Split α}
    {valuation : Valuation} (isOwner : ledger.transaction? owner = some transaction)
    (common : ledger.commonCommodity owner trigger = .ok base) (inside : entry ∈ transaction.splits)
    (isSplit : ledger.split? entry = some split)
    (valued : ledger.valuation entry split base = .ok valuation) : valuation ≠ .inexpressible := by
  obtain ⟨place, found, valued⟩ := bind_eq_ok_iff.mp valued
  rcases accepts_of_commonCommodity isOwner common with ⟨rfl, tolerant⟩ | ⟨commodity, rfl, accepts⟩
  · cases place with
    | none =>
      dsimp only at valued
      rw [tolerant] at valued
      obtain rfl := Except.ok.inj valued
      nofun
    | some place =>
      obtain rfl := Except.ok.inj valued
      simp [Account.valuation, tolerant]
  · obtain ⟨again, isAgain, inAccount⟩ := accepts entry inside
    obtain rfl : split = again := Option.some.inj (isSplit.symm.trans isAgain)
    rw [found] at inAccount
    rcases inAccount with ⟨same, tolerant⟩ | ⟨account, holder, same, has⟩
    · obtain rfl := Except.ok.inj same
      rw [tolerant] at valued
      obtain rfl := Except.ok.inj valued
      nofun
    · obtain rfl := Except.ok.inj same
      obtain rfl := Except.ok.inj valued
      exact has.expressible ledger.enforces

end Ledger

end DoubleEntry
