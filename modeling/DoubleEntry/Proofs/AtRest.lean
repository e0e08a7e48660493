import DoubleEntry.Proofs.Upkeep.Session

/-! # Registers at rest

When all transactions are closed no split is loose, and the registers show all that they are to show: their
splits in ledger order, and beside each split the balance over the splits up to it. A run ends like that if
its commands heed a few things (`Command.Heeds`). None of these is checked when a command runs, and the
examples of runs at the end show registers out of order and balances that are stale without them.
-/

namespace DoubleEntry

open DoubleEntry.Action Ledger Upkeep

variable {α J : Type} [Scalar α] [Journal J α] {ledger : Ledger α J} {aspect : Aspect}
  {account : AccountId} {holder : Account}

/-- What a command has to heed for the order of registers. A split outside any transaction gets a new memo
or action only outside accounts as well, and enters an account only where no loose split stands; a split
leaves its transaction only outside accounts; a counterpart has room; and the splits of a transaction stand
alone in their registers when it is closed. -/
def Command.HeedsOrder (ledger : Ledger α J) : Command α → Prop
  | .setMemo split _ | .setAction split _ => Apart ledger split
  | .enterAccount account split => ledger.parentOf? split = none → ledger.IsQuiet none account
  | .removeSplit _ split => ledger.accountOf? split = none
  | .rebalanceSplit split => ledger.HasRoom none split
  | .rebalanceTransaction transaction => ∀ split ∈ ledger.splitsOf transaction, ledger.HasRoom none split
  | .commitEdit transaction => (Action.commitEdit transaction ledger).ledger.StandsAlone transaction
  | _ => True

omit [Journal J α] in
/-- What a command has to heed for running balances. A split outside any transaction gets new figures only
outside accounts as well, and a split leaves its transaction only while its register is current. -/
def Command.HeedsBalances (ledger : Ledger α J) : Command α → Prop
  | .setPriceAndAmount split _ _ | .setPrice split _ | .setAmount split _ | .setValue split _
  | .setSplitWorth split _ _ => Apart ledger split
  | .removeSplit _ split => MayLeave .balances ledger split
  | _ => True

instance : DecidablePred (Command.HeedsOrder ledger) := fun command => by
  cases command <;> dsimp only [Command.HeedsOrder] <;> infer_instance

instance [DecidableEq α] : DecidablePred (Command.HeedsBalances ledger) := fun command => by
  cases command <;> dsimp only [Command.HeedsBalances] <;> infer_instance

def Command.Heeds (aspect : Aspect) (ledger : Ledger α J) (command : Command α) : Prop :=
  match aspect with
  | .order => command.HeedsOrder ledger
  | .balances => command.HeedsBalances ledger

/-- Commands heed what they have to, and registers are kept by the ledger alone. -/
def Deed.Heeds (aspect : Aspect) (ledger : Ledger α J) : Deed α J → Prop
  | .command request => request.Heeds aspect ledger
  | deed => deed.LeavesRegisters

instance [DecidableEq α] : DecidablePred (Deed.Heeds aspect ledger)
  | .command request =>
    match aspect with
    | .order => inferInstanceAs (Decidable (request.HeedsOrder ledger))
    | .balances => inferInstanceAs (Decidable (request.HeedsBalances ledger))
  | .setAccounts _ => inferInstanceAs (Decidable False)
  | .openAccount _ _ _ | .setDefers _ _ | .clearChanged _ | .markChanged _ | .setClock _
  | .setJournal _ => inferInstanceAs (Decidable True)

namespace Upkeep

/-- A command that heeds what it has to keeps registers tidy. -/
theorem ends_act (owned : ledger.Owned) (tidy : ledger.Tidy aspect none none) (command : Command α)
    (heeds : command.Heeds aspect ledger) :
    (command.act (J := J)).Ends ledger fun _ after => Kept aspect none after := by
  have kept : Kept aspect none ledger := fun _ => tidy
  have forOrder (order : aspect = .order) : command.HeedsOrder ledger := by
    subst order
    exact heeds
  have forBalances (balances : aspect = .balances) : command.HeedsBalances ledger := by
    subst balances
    exact heeds
  cases command with
  | createSplit => exact ends_reply (keeps_createSplit ledger kept)
  | createTransaction => exact ends_reply (ends_createTransaction owned kept)
  | discardSplit split => exact ends_reply (ends_discardSplit split kept)
  | setPriceAndAmount split price amount =>
    exact ends_reply (ends_setPriceAndAmount kept forBalances price amount)
  | setPrice split price => exact ends_reply (ends_setPrice kept forBalances price)
  | setAmount split amount => exact ends_reply (ends_setAmount kept forBalances amount)
  | setValue split value => exact ends_reply (ends_setValue kept forBalances value)
  | setMemo split _ | setAction split _ =>
    refine ends_reply (ends_editSplit kept (by constructor <;> exact fun _ => rfl) ?_)
    cases aspect with
    | order => exact .inr heeds
    | balances => exact .inl fun _ => ⟨rfl, rfl⟩
  | setSplitDocref split _ | setReconciledOn split _ =>
    refine ends_reply (ends_editSplit kept (by constructor <;> exact fun _ => rfl) (.inl ?_))
    cases aspect with
    | order => exact .of_place fun _ => rfl
    | balances => exact fun _ => ⟨rfl, rfl⟩
  | setReconcile split state => exact ends_reply (keeps_setReconcile split state ledger kept)
  | setNum transaction _ | setDescription transaction _ | setDocref transaction _
  | setEntered transaction _ =>
    exact ends_reply (keeps_editTransaction (by exact fun _ => rfl) transaction ledger kept)
  | setPosted transaction date => exact ends_reply (ends_setPosted owned kept transaction date)
  | setDay transaction day month year =>
    exact ends_reply (ends_setDay owned kept transaction day month year)
  | setToday transaction => exact ends_reply (ends_bind.mpr (ends_setDates owned kept transaction _))
  | setCaption transaction caption text =>
    exact ends_reply (ends_setCaption owned kept transaction caption text)
  | appendSplit transaction split => exact ends_reply (ends_appendSplit owned tidy transaction split)
  | removeSplit transaction split =>
    refine ends_reply (ends_removeSplit tidy ?_ transaction)
    cases aspect <;> exact heeds
  | enterAccount account split => exact ends_reply (ends_enterAccount tidy forOrder)
  | leaveAccount split => exact ends_reply (ends_leaveAccount tidy split)
  | otherSplit split => exact ends_reply (keeps_otherSplit split ledger kept)
  | beginEdit transaction defer => exact ends_reply (keeps_beginEdit transaction defer ledger kept)
  | commitEdit transaction => exact ends_reply (ends_commitEdit owned tidy forOrder)
  | destroyTransaction transaction => exact ends_reply (ends_destroyTransaction tidy transaction)
  | destroySplit split => exact ends_reply (ends_destroySplit owned tidy split)
  | splitWorth split base => exact ends_reply (keeps_splitWorth split base ledger kept)
  | setSplitWorth split value base => exact ends_reply (ends_setSplitWorth kept forBalances value base)
  | transactionValue | commonCommodity | imbalance | isBalanced =>
    exact ends_reply (keeps_ask ledger kept)
  | rebalanceSplit split => exact ends_reply (ends_rebalanceSplit_tidy kept forOrder)
  | rebalanceTransaction transaction =>
    exact ends_reply (ends_rebalanceTransaction kept transaction forOrder)

omit [Journal J α] in
/-- An account comes with an empty register. -/
theorem tidy_openAccount (tidy : ledger.Tidy aspect none none) (name : String) (currency : Commodity)
    (security : Option Commodity) :
    (ledger.openAccount name currency security).2.Tidy aspect none none := by
  have held (account : AccountId) : (ledger.openAccount name currency security).2.account? account =
      if account = ⟨Ident.ofNat ledger.minted⟩ then some { name, currency, security }
      else ledger.account? account := Table.get?_insert ..
  refine ⟨⟨fun live => (tidy.numbered live).trans (Nat.lt_succ_self _), fun {account holder} found => ?_,
    fun {account holder id} found inside => ?_⟩, fun {account holder} found => ?_⟩
  all_goals
    rw [held] at found
    split at found
  · cases found
    exact .nil
  · exact tidy.nodup found
  · cases found
    cases inside
  · exact tidy.named found inside
  · cases found
    cases aspect with
    | order => exact .nil
    | balances => exact fun _ _ => nofun
  · exact (tidy.shows found).steady fun id _ settled => ⟨settled, same_of_entry rfl fun _ _ => rfl⟩

omit [Journal J α] in
/-- The flags of accounts do not count. -/
theorem tidy_modifyAccount {change : Account → Account} (tidy : ledger.Tidy aspect none none)
    (keeps : ∀ holder, (change holder).register = holder.register) (account : AccountId) :
    Tidy aspect none none { ledger with accounts := ledger.accounts.modify account change } :=
  tidy.steady (.of_entries le_rfl rfl rfl
    (Table.map_get?_modify ledger.accounts account change (·.register) keeps))

/-- Whatever is done to a ledger and heeds what it has to keeps registers tidy. -/
theorem keeps_deed (owned : ledger.Owned) (tidy : ledger.Tidy aspect none none) (deed : Deed α J)
    (heeds : deed.Heeds aspect ledger) : Kept aspect none (deed.apply ledger) := by
  cases deed with
  | command request => exact ends_act owned tidy request heeds
  | openAccount name currency security => exact fun _ => tidy_openAccount tidy name currency security
  | setDefers account _ | clearChanged account | markChanged account =>
    exact fun _ => tidy_modifyAccount tidy (by exact fun _ => rfl) account
  | setClock _ | setJournal _ => exact fun _ => tidy.steady (.of_entries le_rfl rfl rfl fun _ => rfl)
  | setAccounts _ => exact heeds.elim

end Upkeep

namespace Ledger

/-- All transactions are closed. -/
def IsAtRest (ledger : Ledger α J) : Prop :=
  ∀ owner transaction, ledger.transaction? owner = some transaction → transaction.edit = .closed

instance {α J : Type} (ledger : Ledger α J) : Decidable ledger.IsAtRest :=
  decidable_of_iff _ (Table.forall_get?_iff ledger.transactions _).symm

omit [Scalar α] [Journal J α] in
theorem IsAtRest.isLoose (rest : ledger.IsAtRest) (owned : ledger.Owned) (id : SplitId) :
    ledger.isLoose id = false := by
  rw [Ledger.isLoose]
  cases parent : ledger.parentOf? id with
  | none => rfl
  | some owner =>
    obtain ⟨transaction, found⟩ := owned.known (parentOf?_eq_some_iff.mp parent)
    simp [found, rest owner transaction found, EditState.isOpen]

omit [Journal J α] in
/-- Tidy registers show at rest all that they are to show. -/
theorem Tidy.showsAll (tidy : ledger.Tidy aspect none none) (owned : ledger.Owned)
    (rest : ledger.IsAtRest) (held : ledger.account? account = some holder) :
    ledger.ShowsAll aspect holder.register := by
  have settled (id : SplitId) : ledger.mayDisturb none id = false := by
    simp [mayDisturb, rest.isLoose owned id]
  have shows := tidy.shows held
  cases aspect with
  | order => simpa [Shows, ShowsAll, settled] using shows
  | balances => exact shows nofun fun id _ => settled id

end Ledger

/-- The ledgers at the end of runs in which every deed heeds what it has to. -/
inductive Heedful (aspect : Aspect) : Ledger α J → Prop
  | start (settings : Settings) (journal : J) : Heedful aspect (.start settings journal)
  | step {ledger : Ledger α J} (heedful : Heedful aspect ledger) (deed : Deed α J)
    (heeds : deed.Heeds aspect ledger) (fresh : (deed.apply ledger).minted ≤ 2 ^ 128) :
    Heedful aspect (deed.apply ledger)

/-- Every deed of a list heeds what it has to when its turn comes. -/
def HeedsAll (aspect : Aspect) : Ledger α J → List (Deed α J) → Prop
  | _, [] => True
  | ledger, deed :: rest => deed.Heeds aspect ledger ∧ HeedsAll aspect (deed.apply ledger) rest

instance HeedsAll.decide [DecidableEq α] (aspect : Aspect) : ∀ (ledger : Ledger α J)
    (deeds : List (Deed α J)), Decidable (HeedsAll aspect ledger deeds)
  | _, [] => inferInstanceAs (Decidable True)
  | ledger, deed :: rest =>
    have := HeedsAll.decide aspect (deed.apply ledger) rest
    inferInstanceAs (Decidable (deed.Heeds aspect ledger ∧ HeedsAll aspect (deed.apply ledger) rest))

namespace Heedful

theorem reachable (heedful : Heedful aspect ledger) : Reachable Deed.LeavesRegisters ledger := by
  induction heedful with
  | start settings journal => exact .start settings journal
  | step _ deed heeds fresh ih =>
    refine ih.step deed ?_ fresh
    cases deed with
    | command _ => trivial
    | _ => exact heeds

theorem tidy (heedful : Heedful aspect ledger) : ledger.Tidy aspect none none := by
  induction heedful with
  | start _ _ => exact ⟨⟨nofun, nofun, nofun⟩, nofun⟩
  | step before deed heeds fresh ih =>
    -- Ownership, which every run keeps, makes the splits of an open transaction loose.
    exact keeps_deed before.reachable.owned ih deed heeds fresh

theorem after (heedful : Heedful aspect ledger) (deeds : List (Deed α J))
    (heeds : HeedsAll aspect ledger deeds)
    (fresh : ∀ count ≤ deeds.length, (ledger.after (deeds.take count)).minted ≤ 2 ^ 128) :
    Heedful aspect (ledger.after deeds) := by
  induction deeds generalizing ledger with
  | nil => exact heedful
  | cons deed rest ih =>
    refine ih (heedful.step deed heeds.1 (fresh 1 (by simp))) heeds.2 fun count short => ?_
    exact fresh (count + 1) (Nat.succ_le_succ short)

end Heedful

/-! ## Runs -/

/-- An edit session. -/
def Deed.session (transaction : TransactionId) (commands : List (Command Rat)) :
    List (Deed Rat (MemoryLog Rat)) :=
  (Command.beginEdit transaction false :: commands ++ [Command.commitEdit transaction]).map Deed.command

/-- The ledger after a run without enforcement that begins with the opening of account 0. -/
def Ledger.run (deeds : List (Deed Rat (MemoryLog Rat))) : Ledger Rat (MemoryLog Rat) :=
  (Ledger.start ⟨.tolerant⟩ {}).after (.openAccount "Cash" .dollar none :: deeds)

section Order

/-- At rest every register is in ledger order. -/
theorem Heedful.register_inOrder (heedful : Heedful .order ledger) (rest : ledger.IsAtRest)
    (held : ledger.account? account = some holder) :
    Register.InOrder ledger.postings.compare holder.register :=
  heedful.tidy.showsAll heedful.reachable.owned rest held

/-- Two sessions: split 5 comes before split 1 in the register, and after it when its transaction is
numbered. -/
def Ledger.renumbered : Ledger Rat (MemoryLog Rat) :=
  let cash : AccountId := ⟨.ofNat 0⟩
  run <| .command .createTransaction ::
    Deed.session ⟨.ofNat 2⟩ [.enterAccount cash ⟨.ofNat 1⟩, .setNum ⟨.ofNat 2⟩ "5"] ++
    .command .createTransaction ::
    Deed.session ⟨.ofNat 6⟩ [.enterAccount cash ⟨.ofNat 5⟩, .setNum ⟨.ofNat 6⟩ "9"]

theorem Heedful.register_inOrder_renumbered : renumbered.IsAtRest ∧ ∃ holder,
    renumbered.account? ⟨.ofNat 0⟩ = some holder ∧ holder.register = [⟨.ofNat 1⟩, ⟨.ofNat 5⟩] ∧
      Register.InOrder renumbered.postings.compare holder.register := by
  have heedful : Heedful .order renumbered :=
    (Heedful.start _ _).after _ (by decide +kernel) (by decide +kernel)
  have rest : renumbered.IsAtRest := by decide +kernel
  have register : (renumbered.account? ⟨.ofNat 0⟩).map (·.register) =
      some [⟨.ofNat 1⟩, ⟨.ofNat 5⟩] := by decide +kernel
  obtain ⟨holder, held, register⟩ := Option.map_eq_some_iff.mp register
  exact ⟨rest, holder, held, register, Heedful.register_inOrder heedful rest held⟩

/-- Transaction 2 has two splits in one register and is numbered anew when split 6 stands behind them:
split 1 then stands out of order beside split 4, which has to move as well. -/
def Ledger.overtaken : Ledger Rat (MemoryLog Rat) :=
  let cash : AccountId := ⟨.ofNat 0⟩
  run <| .command .createTransaction ::
    Deed.session ⟨.ofNat 2⟩ [.createSplit, .appendSplit ⟨.ofNat 2⟩ ⟨.ofNat 4⟩,
      .enterAccount cash ⟨.ofNat 1⟩, .enterAccount cash ⟨.ofNat 4⟩] ++
    .command .createTransaction ::
    Deed.session ⟨.ofNat 7⟩ [.enterAccount cash ⟨.ofNat 6⟩, .setNum ⟨.ofNat 7⟩ "5"] ++
    Deed.session ⟨.ofNat 2⟩ [.setNum ⟨.ofNat 2⟩ "9"]

/-- Splits 1 and 2 are in no transaction, and split 1 gets a memo in its register. -/
def Ledger.annotated : Ledger Rat (MemoryLog Rat) :=
  let cash : AccountId := ⟨.ofNat 0⟩
  run <| [.createSplit, .createSplit, .enterAccount cash ⟨.ofNat 1⟩, .enterAccount cash ⟨.ofNat 2⟩,
    .setMemo ⟨.ofNat 1⟩ "z"].map Deed.command

/-- Registers out of order at rest: a commit does not look farther than the neighbours of a split, and a
split in no transaction is not moved at all. -/
theorem Reachable.register_disordered :
    (Reachable Deed.LeavesRegisters overtaken ∧ overtaken.IsAtRest ∧
      (overtaken.account? ⟨.ofNat 0⟩).map (·.register) = some [⟨.ofNat 1⟩, ⟨.ofNat 6⟩, ⟨.ofNat 4⟩] ∧
      overtaken.postings.compare ⟨.ofNat 1⟩ ⟨.ofNat 6⟩ = .gt) ∧
    (Reachable Deed.LeavesRegisters annotated ∧ annotated.IsAtRest ∧
      (annotated.account? ⟨.ofNat 0⟩).map (·.register) = some [⟨.ofNat 1⟩, ⟨.ofNat 2⟩] ∧
      annotated.postings.compare ⟨.ofNat 1⟩ ⟨.ofNat 2⟩ = .gt) := by
  refine ⟨⟨?_, ?_, ?_, ?_⟩, ?_, ?_, ?_, ?_⟩
  · exact (Reachable.start _ _).after _ (by decide +kernel) (by decide +kernel)
  · decide +kernel
  · decide +kernel
  · decide +kernel
  · exact (Reachable.start _ _).after _ (by decide +kernel) (by decide +kernel)
  · decide +kernel
  · decide +kernel
  · decide +kernel

end Order

section Balances

/-- At rest every split of a register carries the balance over the splits up to it. -/
theorem Heedful.register_isCurrent (heedful : Heedful .balances ledger) (rest : ledger.IsAtRest)
    (held : ledger.account? account = some holder) : ledger.IsCurrent holder.register :=
  heedful.tidy.showsAll heedful.reachable.owned rest held

/-- A session in which split 4 joins and leaves again with its register current, and split 1 gets an
amount. -/
def Ledger.summed : Ledger Rat (MemoryLog Rat) :=
  let cash : AccountId := ⟨.ofNat 0⟩
  run <| .command .createTransaction ::
    Deed.session ⟨.ofNat 2⟩ [.createSplit, .enterAccount cash ⟨.ofNat 4⟩,
      .appendSplit ⟨.ofNat 2⟩ ⟨.ofNat 4⟩, .removeSplit ⟨.ofNat 2⟩ ⟨.ofNat 4⟩,
      .enterAccount cash ⟨.ofNat 1⟩, .setAmount ⟨.ofNat 1⟩ 5]

theorem Heedful.register_isCurrent_summed : summed.IsAtRest ∧ ∃ holder,
    summed.account? ⟨.ofNat 0⟩ = some holder ∧ holder.register = [⟨.ofNat 1⟩, ⟨.ofNat 4⟩] ∧
      (summed.running ⟨.ofNat 4⟩).balance = 5 ∧ summed.IsCurrent holder.register := by
  have heedful : Heedful .balances summed :=
    (Heedful.start _ _).after _ (by decide +kernel) (by decide +kernel)
  have rest : summed.IsAtRest := by decide +kernel
  have register : (summed.account? ⟨.ofNat 0⟩).map (·.register) =
      some [⟨.ofNat 1⟩, ⟨.ofNat 4⟩] := by decide +kernel
  obtain ⟨holder, held, register⟩ := Option.map_eq_some_iff.mp register
  exact ⟨rest, holder, held, register, by decide +kernel,
    Heedful.register_isCurrent heedful rest held⟩

/-- Split 1 is in no transaction, and gets an amount in its register. -/
def Ledger.detached : Ledger Rat (MemoryLog Rat) :=
  run <| [.createSplit, .enterAccount ⟨.ofNat 0⟩ ⟨.ofNat 1⟩, .setAmount ⟨.ofNat 1⟩ 5].map Deed.command

/-- Split 4 gets an amount in its register and leaves its transaction before that is committed. -/
def Ledger.departed : Ledger Rat (MemoryLog Rat) :=
  run <| .command .createTransaction ::
    Deed.session ⟨.ofNat 2⟩ [.createSplit, .enterAccount ⟨.ofNat 0⟩ ⟨.ofNat 4⟩,
      .appendSplit ⟨.ofNat 2⟩ ⟨.ofNat 4⟩, .setAmount ⟨.ofNat 4⟩ 5, .removeSplit ⟨.ofNat 2⟩ ⟨.ofNat 4⟩]

/-- Balances that are stale at rest: a split that is in no transaction by the time of a commit, if there is
one, does not get its account recomputed. -/
theorem Reachable.register_stale :
    (Reachable Deed.LeavesRegisters detached ∧ detached.IsAtRest ∧
      (detached.account? ⟨.ofNat 0⟩).map (·.register) = some [⟨.ofNat 1⟩] ∧
      (detached.running ⟨.ofNat 1⟩).balance = 0 ∧
      (detached.balanceOver [⟨.ofNat 1⟩]).balance = 5) ∧
    (Reachable Deed.LeavesRegisters departed ∧ departed.IsAtRest ∧
      (departed.account? ⟨.ofNat 0⟩).map (·.register) = some [⟨.ofNat 4⟩] ∧
      (departed.running ⟨.ofNat 4⟩).balance = 0 ∧
      (departed.balanceOver [⟨.ofNat 4⟩]).balance = 5) := by
  refine ⟨⟨?_, ?_, ?_, ?_, ?_⟩, ?_, ?_, ?_, ?_, ?_⟩
  · exact (Reachable.start _ _).after _ (by decide +kernel) (by decide +kernel)
  · decide +kernel
  · decide +kernel
  · decide +kernel
  · decide +kernel
  · exact (Reachable.start _ _).after _ (by decide +kernel) (by decide +kernel)
  · decide +kernel
  · decide +kernel
  · decide +kernel
  · decide +kernel

end Balances

end DoubleEntry
