import DoubleEntry.Proofs.Locality
import DoubleEntry.Proofs.Membership

/-! # How far a command reaches

A command is about the transaction that it names and about the one of the split that it names; a split
that is appended has both. It reaches the splits of these and the split that it names. Beyond its reach
nothing changes in a ledger that can be reached, whether or not the command fails: no other transaction,
of the other splits nothing but running balances, and nothing at all in an account without splits that
the command reaches, unless a split is to enter it.
-/

namespace DoubleEntry

open Ledger

variable {α J : Type}

namespace Command

/-- The transactions that a command is about. -/
def IsAbout (ledger : Ledger α J) (command : Command α) (id : TransactionId) : Prop :=
  command.transaction? = some id ∨ command.split?.bind ledger.parentOf? = some id

/-- The splits that a command names or finds in a transaction that it is about. -/
def Reaches (ledger : Ledger α J) (command : Command α) (split : SplitId) : Prop :=
  command.split? = some split ∨ ∃ id ∈ ledger.parentOf? split, command.IsAbout ledger id

instance {ledger : Ledger α J} {command : Command α} : DecidablePred (command.IsAbout ledger) :=
  fun id => inferInstanceAs (Decidable (_ = some id ∨ _ = some id))

instance {ledger : Ledger α J} {command : Command α} : DecidablePred (command.Reaches ledger) :=
  fun split => inferInstanceAs (Decidable (_ = some split ∨ ∃ id ∈ ledger.parentOf? split, _))

/-- What a command does not reach. Members are the splits that no account with a split in reach lists. -/
def beyond (ledger : Ledger α J) (command : Command α) : Shelter where
  transactions := {id | (ledger.transaction? id).isSome ∧ ¬ command.IsAbout ledger id}
  splits := {split | (ledger.split? split).isSome ∧ ¬ command.Reaches ledger split}
  accounts := {account | command.account? ≠ some account ∧
    ∀ split, command.Reaches ledger split → ledger.accountOf? split ≠ some account}
  members := {split | ((ledger.split? split).isSome ∧ ¬ command.Reaches ledger split) ∧
    ∀ account holder, ledger.account? account = some holder → split ∈ holder.register →
      command.account? ≠ some account ∧
        ∀ other, command.Reaches ledger other → ledger.accountOf? other ≠ some account}
  within _ inside := inside.1

end Command

variable {ledger : Ledger α J}

/-- A split in a transaction that a command is not about is not reached by naming it. -/
theorem Command.isAbout_of_reaches {command : Command α} {split : SplitId} {owner : TransactionId}
    (reaches : command.Reaches ledger split) (parent : ledger.parentOf? split = some owner) :
    command.IsAbout ledger owner := by
  rcases reaches with named | ⟨id, inside, about⟩
  · exact .inr (by rw [named, Option.bind_some, parent])
  · obtain rfl : owner = id := Option.some.inj (parent.symm.trans inside)
    exact about

variable [Scalar α]

/-- What is beyond the reach of a command is closed: the transactions and splits in its reach name and
list no others. -/
theorem Ledger.Owned.spares_beyond (owned : ledger.Owned) (command : Command α) :
    (command.beyond ledger).Spares ledger ledger where
  transaction _ := rfl
  split _ := rfl
  account _ := rfl
  member _ := rfl
  lists {id transaction} outside found split listed inside := by
    have about : command.IsAbout ledger id :=
      not_not.mp fun apart => outside ⟨by rw [found]; rfl, apart⟩
    have parent := parentOf?_eq_some_iff.mpr ((owned.mem_iff found).mp listed)
    exact inside.2 (.inr ⟨id, parent, about⟩)
  registers {id holder} outside held split listed inside := outside (inside.2 id holder held listed)
  parents {split parent} outside named inside := by
    obtain ⟨entry, isSplit, -⟩ := Option.bind_eq_some_iff.mp named
    have reaches : command.Reaches ledger split :=
      not_not.mp fun apart => outside ⟨by rw [isSplit]; rfl, apart⟩
    exact inside.2 (Command.isAbout_of_reaches reaches named)
  homes {split account} outside named inside := by
    obtain ⟨entry, isSplit, -⟩ := Option.bind_eq_some_iff.mp named
    have reaches : command.Reaches ledger split :=
      not_not.mp fun apart => outside ⟨by rw [isSplit]; rfl, apart⟩
    exact inside.2 split reaches named
  transactionBelow inside := owned.below.listed (by simpa [ownership] using inside.1)
  splitBelow inside := owned.below.named (by simpa [ownership] using inside.1)

variable [Journal J α]

/-- Nothing changes beyond the reach of a command. -/
theorem Ledger.Owned.spares_run (owned : ledger.Owned) (command : Command α)
    (fresh : (command.run ledger).ledger.minted ≤ 2 ^ 128) :
    (command.beyond ledger).Spares ledger (command.run ledger).ledger := by
  have keeps : Action.Keeps ((command.beyond ledger).Stays ledger) (command.act (J := J)) :=
    Shelter.keeps_act command (fun split named inside => inside.2 (.inl named))
      (fun id named inside => inside.2 (.inl named)) fun id named inside => inside.1 named
  exact keeps ledger (fun _ => owned.spares_beyond command) fresh

/-- Whatever was asked of a ledger before, and whether or not a command fails: transactions that it is
not about are unchanged; splits beyond its reach keep everything but their running balances; and an
account that holds no split in its reach, and is not to be entered, is unchanged together with all
splits that it lists. Other owners of the registers may let two accounts list one split, so the last is
said of registers that are kept by the ledger alone. -/
theorem Reachable.command_local [ZeroPriced α] (reached : Reachable (fun _ => True) ledger)
    (command : Command α) (fresh : (command.run ledger).ledger.minted ≤ 2 ^ 128) :
    (∀ id transaction, ledger.transaction? id = some transaction → ¬ command.IsAbout ledger id →
      (command.run ledger).ledger.transaction? id = some transaction) ∧
    (∀ id split, ledger.split? id = some split → ¬ command.Reaches ledger id →
      ∃ later, (command.run ledger).ledger.split? id = some later ∧ later.bare = split.bare) ∧
    (Reachable Deed.LeavesRegisters ledger → ∀ id holder, ledger.account? id = some holder →
      command.account? ≠ some id → (∀ split ∈ holder.register, ¬ command.Reaches ledger split) →
      (command.run ledger).ledger.account? id = some holder ∧ ∀ split ∈ holder.register,
        (command.run ledger).ledger.split? split = ledger.split? split) := by
  have spares := reached.owned.spares_run command fresh
  refine ⟨fun id transaction found apart => ?_, fun id split isSplit apart => ?_,
    fun kept id holder held entered apart => ?_⟩
  · exact (spares.transaction ⟨by rw [found]; rfl, apart⟩).trans found
  · have same := spares.split ⟨by rw [isSplit]; rfl, apart⟩
    rw [isSplit, Option.map_some] at same
    exact Option.map_eq_some_iff.mp same
  · have booked := kept.booked
    have away : command.account? ≠ some id ∧
        ∀ other, command.Reaches ledger other → ledger.accountOf? other ≠ some id :=
      ⟨entered, fun other reaches named =>
        apart other ((booked.mem_iff held).mpr (account_eq_iff.mpr named)) reaches⟩
    refine ⟨(spares.account away).trans held, fun split listed => spares.member ⟨⟨?_, ?_⟩, ?_⟩⟩
    · obtain ⟨entry, isSplit, -⟩ := within_eq_iff.mp ((booked.mem_iff held).mp listed)
      rw [isSplit]
      rfl
    · exact apart split listed
    · intro other another elsewhere inside
      have named := (booked.mem_iff held).mp listed
      have again := (booked.mem_iff elsewhere).mp inside
      obtain rfl : id = other := Option.some.inj (Option.some.inj (named.symm.trans again))
      exact away

/-- Split 2 of transaction 3 in account 0, and split 4 of transaction 5 in account 1. Both transactions
are open. -/
def Ledger.sideBySide : Ledger Float (MemoryLog Float) :=
  (Ledger.start ⟨.forceBalance⟩ {}).after [.openAccount "Cash" .dollar none,
    .openAccount "Bank" .dollar none, .command .createTransaction, .command .createTransaction,
    .command (.beginEdit ⟨.ofNat 3⟩ false), .command (.beginEdit ⟨.ofNat 5⟩ false),
    .command (.enterAccount ⟨.ofNat 0⟩ ⟨.ofNat 2⟩), .command (.enterAccount ⟨.ofNat 1⟩ ⟨.ofNat 4⟩)]

/-- An amount on the one side, which brings a counterpart in, leaves the other side alone. -/
theorem Reachable.command_local_sideBySide :
    let after := ((Command.setAmount ⟨.ofNat 2⟩ 7).run sideBySide).ledger
    after.transaction? ⟨.ofNat 5⟩ = sideBySide.transaction? ⟨.ofNat 5⟩ ∧
      (after.split? ⟨.ofNat 4⟩).map Split.bare = (sideBySide.split? ⟨.ofNat 4⟩).map Split.bare ∧
      after.account? ⟨.ofNat 1⟩ = sideBySide.account? ⟨.ofNat 1⟩ := by
  have leaves : Reachable Deed.LeavesRegisters sideBySide :=
    (Reachable.start _ _).after _ (by simp [Deed.LeavesRegisters]) (by decide +kernel)
  have reached : Reachable (fun _ => True) sideBySide :=
    (Reachable.start _ _).after _ (fun _ _ => trivial) (by decide +kernel)
  obtain ⟨transaction, found⟩ : ∃ transaction, sideBySide.transaction? ⟨.ofNat 5⟩ = some transaction :=
    Option.isSome_iff_exists.mp (by decide +kernel)
  obtain ⟨split, isSplit⟩ : ∃ split, sideBySide.split? ⟨.ofNat 4⟩ = some split :=
    Option.isSome_iff_exists.mp (by decide +kernel)
  have register : (sideBySide.account? ⟨.ofNat 1⟩).map (·.register) = some [⟨.ofNat 4⟩] := by
    decide +kernel
  obtain ⟨holder, held, lists⟩ := Option.map_eq_some_iff.mp register
  have spared := Reachable.command_local reached (.setAmount ⟨.ofNat 2⟩ 7) (by decide +kernel)
  obtain ⟨later, isLater, bare⟩ := spared.2.1 _ split isSplit (by decide +kernel)
  refine ⟨(spared.1 _ transaction found (by decide +kernel)).trans found.symm, ?_, ?_⟩
  · rw [isLater, isSplit, Option.map_some, Option.map_some, bare]
  · refine (spared.2.2 leaves _ holder held ?_ ?_).1.trans held.symm
    · intro moves
      cases moves
    · rw [lists]
      decide +kernel

end DoubleEntry
