import DoubleEntry.Proofs.Synthesis
import DoubleEntry.Proofs.Upkeep.Rebalance

/-! # Fresh accounts

An account is fresh if every split in its register carries the sums over the splits up to it. Splits change
one at a time, and only some steps recompute; so freshness is passed on by steps that leave the figures of a
register alone, and is won back by recomputing. `Ledger.Renews` collects what is left of it after several
steps: accounts that were fresh still are, and so is every account in which an amount changed.
-/

namespace DoubleEntry

/-- What an account shows of a split, and which account that is. -/
def Split.posting {α : Type} (split : Split α) :
    Option AccountId × (α × α × Reconcile) × RunningBalance α :=
  (split.account, split.figures, split.running)

namespace Ledger

open Register Links DoubleEntry.Action

variable {α J : Type} [Scalar α] {ledger before middle after : Ledger α J} {id split target : SplitId}
  {account other : AccountId} {holder : Account} {owner : TransactionId}

/-- An account of the book in which every split carries the balance over the splits up to it. -/
def IsFresh (ledger : Ledger α J) (account : AccountId) : Prop :=
  ∃ holder, ledger.account? account = some holder ∧ ledger.IsCurrent holder.register

omit [Scalar α] in
/-- The amount of a split that is there. -/
def amount? (ledger : Ledger α J) (id : SplitId) : Option α := (ledger.split? id).map (·.amount)

/-- Whether a split stands in the register of an account. -/
def Lists (ledger : Ledger α J) (account : AccountId) (id : SplitId) : Prop :=
  ∃ holder, ledger.account? account = some holder ∧ id ∈ holder.register

/-! ## Splits in their accounts -/

omit [Scalar α] in
theorem Booked.shelved (booked : ledger.Booked) : ledger.Shelved where
  numbered := booked.numbered
  nodup := booked.nodup
  named held inside := account_eq_iff.mp ((booked.mem_iff held).mp inside)

omit [Scalar α] in
theorem Booked.isSome_account? (booked : ledger.Booked) (within : ledger.accountOf? id = some account) :
    (ledger.account? account).isSome := by
  obtain ⟨holder, held⟩ := booked.known (account_eq_iff.mpr within)
  exact held ▸ rfl

omit [Scalar α] in
theorem account?_registered : (ledger.registered account split).account? other =
    if other = account then (ledger.account? account).map fun a =>
      { a with register := Register.insert ledger.postings.compare split a.register, changed := true }
    else ledger.account? other := Table.get?_modify ..

omit [Scalar α] in
/-- A split enters the register of the account that it names. -/
theorem Shelved.registered (shelved : ledger.Shelved) (within : ledger.accountOf? split = some account) :
    (ledger.registered account split).Shelved where
  numbered := shelved.numbered
  nodup {other holder} held := by
    rw [account?_registered] at held
    split at held
    · obtain ⟨former, was, rfl⟩ := Option.map_eq_some_iff.mp held
      exact nodup_insert (shelved.nodup was)
    · exact shelved.nodup held
  named {other holder id} held inside := by
    rw [account?_registered] at held
    split at held
    · obtain ⟨former, was, rfl⟩ := Option.map_eq_some_iff.mp held
      subst_vars
      rcases mem_insert.mp inside with rfl | inside
      · exact within
      · exact shelved.named was inside
    · exact shelved.named held inside

/-! ## Freshness of one account -/

section Postings

variable (same : (after.split? id).map Split.posting = (before.split? id).map Split.posting)

include same

omit [Scalar α] in
theorem accountOf?_of_posting : after.accountOf? id = before.accountOf? id := by
  have kept := congrArg (Option.map (·.1)) same
  rw [Option.map_map, Option.map_map] at kept
  exact accountOf?_congr kept

omit [Scalar α] in
theorem figures_of_posting :
    (after.split? id).map Split.figures = (before.split? id).map Split.figures := by
  have kept := congrArg (Option.map (·.2.1)) same
  rw [Option.map_map, Option.map_map] at kept
  exact kept

omit [Scalar α] in
theorem amount?_of_posting : after.amount? id = before.amount? id := by
  have kept := congrArg (Option.map (·.2.1.1)) same
  rw [Option.map_map, Option.map_map] at kept
  exact kept

theorem running_of_posting : after.running id = before.running id := by
  have kept := congrArg (Option.map (·.2.2)) same
  rw [Option.map_map, Option.map_map] at kept
  exact congrArg (Option.getD · .zero) kept

end Postings

/-- An account stays fresh while its register and what it shows of the splits in it stay the same. -/
theorem IsFresh.congr (fresh : before.IsFresh account)
    (register : (after.account? account).map (·.register) = (before.account? account).map (·.register))
    (same : ∀ id, before.Lists account id →
      (after.split? id).map Split.posting = (before.split? id).map Split.posting) :
    after.IsFresh account := by
  obtain ⟨holder, held, current⟩ := fresh
  rw [held, Option.map_some] at register
  obtain ⟨later, found, kept⟩ := Option.map_eq_some_iff.mp register
  refine ⟨later, found, kept ▸ current.congr (fun id inside => ?_) fun id inside => ?_⟩
  · exact figures_of_posting (same id ⟨holder, held, inside⟩)
  · exact running_of_posting (same id ⟨holder, held, inside⟩)

/-- An account is fresh once it was recomputed. -/
theorem Shelved.isFresh_recompute (shelved : ledger.Shelved) (held : (ledger.account? account).isSome) :
    (ledger.recompute account).IsFresh account := by
  obtain ⟨holder, held⟩ := Option.isSome_iff_exists.mp held
  refine ⟨holder, ?_, shelved.isCurrent_recompute held fun elsewhere => absurd rfl elsewhere⟩
  rw [account?, accounts_recompute]
  exact held

/-- An account stays fresh while another one is recomputed, or it itself once more. -/
theorem IsFresh.recompute (fresh : ledger.IsFresh other) (shelved : ledger.Shelved) (account : AccountId) :
    (ledger.recompute account).IsFresh other := by
  obtain ⟨holder, held, current⟩ := fresh
  refine ⟨holder, ?_, shelved.isCurrent_recompute held fun _ => current⟩
  rw [account?, accounts_recompute]
  exact held

/-! ## Freshness through several steps -/

/-- What steps leave of freshness. Accounts that were fresh still are, and so is the account of every split
that came to it or has another amount. -/
structure Renews (before after : Ledger α J) : Prop where
  keeps : ∀ {account}, before.IsFresh account → after.IsFresh account
  settled : ∀ {id account}, after.accountOf? id = some account →
    after.IsFresh account ∨ before.accountOf? id = some account ∧ after.amount? id = before.amount? id

namespace Renews

theorem refl (ledger : Ledger α J) : ledger.Renews ledger :=
  ⟨fun fresh => fresh, fun within => .inr ⟨within, rfl⟩⟩

theorem trans (first : before.Renews middle) (second : middle.Renews after) : before.Renews after where
  keeps fresh := second.keeps (first.keeps fresh)
  settled {id account} within := by
    rcases second.settled within with fresh | ⟨was, same⟩
    · exact .inl fresh
    · rcases first.settled was with fresh | ⟨first, again⟩
      · exact .inl (second.keeps fresh)
      · exact .inr ⟨first, same.trans again⟩

/-- Steps that touch no register, and nothing that an account shows of its splits. -/
theorem of_postings
    (registers : ∀ account,
      (after.account? account).map (·.register) = (before.account? account).map (·.register))
    (same : ∀ id, (after.split? id).map Split.posting = (before.split? id).map Split.posting) :
    before.Renews after where
  keeps fresh := fresh.congr (registers _) fun id _ => same id
  settled within :=
    .inr ⟨(accountOf?_of_posting (same _)).symm.trans within, amount?_of_posting (same _)⟩

/-- An account is recomputed, if there is one, after a change that no other account could notice. -/
theorem of_recompute? (home : Option AccountId) (shelved : middle.Shelved)
    (held : ∀ account, home = some account → (middle.account? account).isSome)
    (registers : ∀ other, home ≠ some other →
      (middle.account? other).map (·.register) = (before.account? other).map (·.register))
    (listed : ∀ other id, home ≠ some other → before.Lists other id →
      (middle.split? id).map Split.posting = (before.split? id).map Split.posting)
    (elsewhere : ∀ other id, home ≠ some other → middle.accountOf? id = some other →
      before.accountOf? id = some other ∧ middle.amount? id = before.amount? id) :
    before.Renews (middle.recompute? home) where
  keeps {other} fresh := by
    have kept (apart : home ≠ some other) : middle.IsFresh other :=
      fresh.congr (registers other apart) fun id => listed other id apart
    cases home with
    | none => exact kept nofun
    | some account =>
      by_cases here : account = other
      · subst here
        exact shelved.isFresh_recompute (held account rfl)
      · exact (kept fun same => here (Option.some.inj same)).recompute shelved account
  settled {id other} within := by
    have alike := middle.recompute?_alike home
    have was : middle.accountOf? id = some other := (alike.accountOf? id).symm.trans within
    by_cases here : home = some other
    · subst here
      exact .inl (shelved.isFresh_recompute (held other rfl))
    · obtain ⟨named, amount⟩ := elsewhere other id here was
      exact .inr ⟨named, (alike.map_split? (·.amount) (fun _ => rfl) id).trans amount⟩

end Renews

/-! ## Single changes -/

omit [Scalar α] in
theorem posting_modifySplit {change : Split α → Split α}
    (keeps : ∀ entry, (change entry).posting = entry.posting) (id : SplitId) :
    ((ledger.modifySplit split change).split? id).map Split.posting =
      (ledger.split? id).map Split.posting :=
  Table.map_get?_modify ledger.splits split change Split.posting keeps id

theorem renews_modifySplit {change : Split α → Split α}
    (keeps : ∀ entry, (change entry).posting = entry.posting) :
    ledger.Renews (ledger.modifySplit split change) :=
  .of_postings (fun _ => rfl) (posting_modifySplit keeps)

theorem renews_modifyTransaction {change : Transaction → Transaction} :
    ledger.Renews (ledger.modifyTransaction owner change) := .of_postings (fun _ => rfl) fun _ => rfl

theorem renews_mark : ledger.Renews (ledger.mark split) :=
  .of_postings (ledger.mark_alike split).still.registers fun id => by rw [split?_mark]

/-! ## Leaving an account -/

section Leaving

omit [Scalar α] in
theorem account?_leaveRegister : (ledger.leaveRegister account split).account? other =
    if other = account then (ledger.account? account).map fun a =>
      { a with register := a.register.filter (· ≠ split), changed := true }
    else ledger.account? other := Table.get?_modify ..

omit [Scalar α] in
theorem Shelved.leaveRegister (shelved : ledger.Shelved) :
    (ledger.leaveRegister account split).Shelved where
  numbered := shelved.numbered
  nodup {other holder} held := by
    rw [account?_leaveRegister] at held
    split at held
    · obtain ⟨former, was, rfl⟩ := Option.map_eq_some_iff.mp held
      exact (shelved.nodup was).filter _
    · exact shelved.nodup held
  named {other holder id} held inside := by
    rw [account?_leaveRegister] at held
    split at held
    · obtain ⟨former, was, rfl⟩ := Option.map_eq_some_iff.mp held
      subst_vars
      exact shelved.named was (List.mem_of_mem_filter inside)
    · exact shelved.named held inside

theorem Shelved.leaveAccount (shelved : ledger.Shelved) : (ledger.leaveAccount split).Shelved := by
  unfold Ledger.leaveAccount
  cases ledger.accountOf? split with
  | none => exact shelved
  | some account => exact shelved.leaveRegister.still (recompute_alike _ account).still

/-- The account of a split that leaves its register is recomputed, and no other one is touched. -/
theorem Booked.renews_leaveAccount (booked : ledger.Booked) (split : SplitId) :
    ledger.Renews (ledger.leaveAccount split) := by
  unfold Ledger.leaveAccount
  cases within : ledger.accountOf? split with
  | none => exact .refl ledger
  | some account =>
    refine .of_recompute? (some account) booked.shelved.leaveRegister ?_ (fun other elsewhere => ?_)
      (fun _ _ _ _ => rfl) fun _ _ _ named => ⟨named, rfl⟩
    · rintro _ ⟨⟩
      rw [account?_leaveRegister, if_pos rfl, Option.isSome_map]
      exact booked.isSome_account? within
    · rw [account?_leaveRegister, if_neg]
      rintro rfl
      exact elsewhere rfl

theorem Booked.isFresh_leaveAccount (booked : ledger.Booked)
    (within : ledger.accountOf? split = some account) : (ledger.leaveAccount split).IsFresh account := by
  simp only [Ledger.leaveAccount, within]
  refine booked.shelved.leaveRegister.isFresh_recompute ?_
  rw [account?_leaveRegister, if_pos rfl, Option.isSome_map]
  exact booked.isSome_account? within

/-- A split leaves the one register that it may be in. -/
theorem Shelved.register_leaveAccount (shelved : ledger.Shelved) (split : SplitId) (account : AccountId) :
    ((ledger.leaveAccount split).account? account).map (·.register) =
      (ledger.account? account).map fun holder => holder.register.filter (· ≠ split) := by
  have untouched (elsewhere : ledger.accountOf? split ≠ some account) :
      (ledger.account? account).map (·.register) =
        (ledger.account? account).map fun holder => holder.register.filter (· ≠ split) := by
    refine Option.map_congr fun holder held => (List.filter_eq_self.mpr fun id inside => ?_).symm
    rw [decide_eq_true_eq]
    rintro rfl
    exact elsewhere (shelved.named held inside)
  unfold Ledger.leaveAccount
  cases within : ledger.accountOf? split with
  | none => exact untouched (by simp [within])
  | some home =>
    refine ((recompute_alike (ledger.leaveRegister home split) home).still.registers account).trans ?_
    rw [account?_leaveRegister]
    split
    · subst_vars
      rw [Option.map_map]
      rfl
    · rename_i elsewhere
      exact untouched fun named => elsewhere (Option.some.inj (named.symm.trans within))

theorem Booked.eraseSplit (booked : ledger.Booked) (split : SplitId) : (ledger.eraseSplit split).Booked :=
  booked.move (membership_eraseSplit booked.agree) minted_eraseSplit.ge (by simp) (by simp)

/-- A split goes that is in no register. -/
theorem Booked.renews_eraseSplit (booked : ledger.Booked) (split : SplitId) :
    ledger.Renews (ledger.eraseSplit split) := by
  refine (booked.renews_leaveAccount split).trans ⟨fun fresh => ?_, fun {id account} within => .inr ?_⟩
  · refine fresh.congr rfl fun id ⟨holder, held, inside⟩ => ?_
    rw [split?_eraseSplit, if_neg (booked.shelved.mem_leaveAccount held inside).1]
  · have different : id ≠ split := by
      rintro rfl
      rw [accountOf?, split?_eraseSplit, if_pos rfl] at within
      contradiction
    have same : (ledger.eraseSplit split).split? id = (ledger.leaveAccount split).split? id := by
      rw [split?_eraseSplit, if_neg different]
    rw [accountOf?, same] at within
    exact ⟨within, congrArg (Option.map Split.amount) same⟩

theorem Booked.isFresh_eraseSplit (booked : ledger.Booked)
    (within : ledger.accountOf? split = some account) : (ledger.eraseSplit split).IsFresh account := by
  refine (booked.isFresh_leaveAccount within).congr rfl fun id ⟨holder, held, inside⟩ => ?_
  rw [split?_eraseSplit, if_neg (booked.shelved.mem_leaveAccount held inside).1]

end Leaving

/-! ## Rebalancing -/

section Rebalancing

variable {amount? : Option α} {entry : Split α} {transaction : Transaction}

omit [Scalar α] in
theorem still_withAmount : ledger.Still (ledger.withAmount target amount?) := by
  cases amount? with
  | none => exact ⟨le_rfl, fun _ => .inl, fun _ => rfl, fun _ _ => rfl⟩
  | some _ => exact still_modifySplit (by exact fun _ _ => rfl)

theorem still_absorbed : ledger.Still (ledger.absorbed target amount?) where
  minted := absorbed_sameLinks.minted.ge
  numbered id live := .inl (by rwa [absorbed_sameHoldings.isSome_split? id] at live)
  registers := absorbed_level.registers
  named id _ := absorbed_level.within id

/-- The account of the split that takes up the difference is recomputed. -/
theorem Shelved.renews_absorbed (shelved : ledger.Shelved)
    (known : ∀ account, ledger.accountOf? target = some account → (ledger.account? account).isSome) :
    ledger.Renews (ledger.absorbed target amount?) := by
  have changed : ledger.Still (ledger.withAmount target amount?) := still_withAmount
  have marked := (ledger.withAmount target amount?).mark_alike target
  have registers (account) := (marked.still.registers account).trans (changed.registers account)
  have within (id) : ((ledger.withAmount target amount?).mark target).accountOf? id =
      ledger.accountOf? id :=
    ((recompute?_alike _ (ledger.accountOf? target)).accountOf? id).symm.trans (absorbed_level.within id)
  have others {id other} (apart : ledger.accountOf? target ≠ some other)
      (named : ledger.accountOf? id = some other) :
      ((ledger.withAmount target amount?).mark target).split? id = ledger.split? id := by
    rw [split?_mark, split?_withAmount_of_ne]
    rintro rfl
    exact apart named
  refine .of_recompute? _ ((shelved.still changed).still marked.still) (fun account home => ?_)
    (fun other _ => registers other) (fun other id apart ⟨holder, held, inside⟩ => ?_)
    fun other id apart named => ?_
  · have same := congrArg Option.isSome (registers account)
    simpa [known account home] using same
  · rw [others apart (shelved.named held inside)]
  · rw [within] at named
    exact ⟨named, congrArg (Option.map Split.amount) (others apart named)⟩

section Counterpart

variable {entry : Split α} (small : ledger.minted < 2 ^ 128)

include small

theorem Shelved.split?_withCounterpart (shelved : ledger.Shelved) (listed : ledger.Lists account id) :
    (ledger.withCounterpart owner entry).split? id = ledger.split? id := by
  refine Ledger.split?_withCounterpart ?_
  rintro rfl
  exact shelved.new_not_registered small ⟨account, listed⟩

theorem Shelved.still_withCounterpart (shelved : ledger.Shelved) :
    ledger.Still (ledger.withCounterpart owner entry) where
  minted := minted_withCounterpart.ge.trans' (Nat.le_succ _)
  numbered id live := by
    by_cases new : id = ledger.nextSplit
    · right
      rw [new, nextSplit, toNat_ofNat small, minted_withCounterpart]
      exact Nat.lt_succ_self _
    · rw [Ledger.split?_withCounterpart new] at live
      exact .inl live
  registers account := (mark_alike _ ledger.nextSplit).still.registers account
  named id := fun ⟨account, listed⟩ => by
    rw [accountOf?, shelved.split?_withCounterpart small listed, accountOf?]

/-- A counterpart is in the account of its source, which is recomputed in the end. -/
theorem Lone.renews_paired (lone : ledger.Lone target entry owner transaction account holder)
    (shelved : ledger.Shelved) : ledger.Renews (ledger.paired owner target entry account amount?) := by
  have arrival : ledger.Still (ledger.withCounterpart owner entry) := shelved.still_withCounterpart small
  have coming : (ledger.withCounterpart owner entry).Shelved := shelved.still arrival
  have known : ((ledger.withCounterpart owner entry).account? account).isSome := by
    have same := congrArg Option.isSome (arrival.registers account)
    simpa [lone.held] using same
  -- The source is recomputed in the pass after the counterpart, and once more when that is in the register.
  have source : (ledger.withCounterpart owner entry).accountOf? target = some account :=
    (accountOf?_eq lone.split?_edited).trans lone.within
  have next : (ledger.withCounterpart owner entry).accountOf? ledger.nextSplit = some account :=
    (accountOf?_eq split?_next).trans lone.within
  have balanced : (ledger.withCounterpart owner entry).Renews
      ((ledger.withCounterpart owner entry).absorbed target amount?) :=
    coming.renews_absorbed fun other named => Option.some.inj (source.symm.trans named) ▸ known
  have entered : (((ledger.withCounterpart owner entry).absorbed target amount?).registered account
      ledger.nextSplit).Shelved :=
    (coming.still still_absorbed).registered ((absorbed_level.within _).trans next)
  have held : ((((ledger.withCounterpart owner entry).absorbed target amount?).registered account
      ledger.nextSplit).account? account).isSome := by
    have level : (ledger.withCounterpart owner entry).Level
        ((ledger.withCounterpart owner entry).absorbed target amount?) := absorbed_level
    have same := congrArg Option.isSome (level.registers account)
    rw [account?_registered, if_pos rfl, Option.isSome_map]
    simpa [known] using same
  have enrolled : ((ledger.withCounterpart owner entry).absorbed target amount?).Renews
      (ledger.paired owner target entry account amount?) := by
    refine .of_recompute? (some account) entered (fun _ same => Option.some.inj same ▸ held)
      (fun other apart => ?_) (fun _ _ _ _ => rfl) fun _ _ _ named => ⟨named, rfl⟩
    rw [account?_registered, if_neg fun same => apart (congrArg some same.symm)]
  refine ⟨fun fresh => ?_, fun {id other} within => ?_⟩
  · refine enrolled.keeps (balanced.keeps (fresh.congr (arrival.registers _) fun id listed => ?_))
    rw [shelved.split?_withCounterpart small listed]
  · rcases (balanced.trans enrolled).settled within with fresh | ⟨was, amount⟩
    · exact .inl fresh
    · by_cases new : id = ledger.nextSplit
      · subst new
        obtain rfl := Option.some.inj (next.symm.trans was)
        exact .inl (entered.isFresh_recompute held)
      · rw [accountOf?, Ledger.split?_withCounterpart new] at was
        rw [Ledger.amount?, Ledger.amount?, Ledger.split?_withCounterpart new] at amount
        exact .inr ⟨was, amount⟩

end Counterpart

end Rebalancing

end Ledger

open DoubleEntry.Action

/-- Rebalancing leaves every account fresh in which it changed an amount or that a counterpart came to. -/
theorem Action.ends_rebalanceSplit_renews {α J : Type} [Scalar α] [ZeroPriced α] {ledger : Ledger α J}
    (booked : WhileFresh Ledger.Booked ledger) (edited : SplitId) :
    (rebalanceSplit edited).Ends ledger fun _ after => WhileFresh ledger.Renews after := by
  rw [rebalanceSplit, ends_settle]
  rcases decided : ledger.settlement edited with _ | _ | ⟨owner, target, base⟩ | ⟨owner, source⟩
  · exact fun _ => .refl ledger
  · exact fun _ => .refl ledger
  · dsimp only
    cases ledger.absorption owner target base with
    | error _ => exact fun _ => .refl ledger
    | ok amount? =>
      intro fresh
      have sound := booked (Ledger.absorbed_sameLinks.minted.ge.trans fresh)
      exact sound.shelved.renews_absorbed fun _ within => sound.isSome_account? within
  · obtain ⟨rfl, split, _, _, active, -⟩ := Ledger.settlement_eq_pair decided
    have minted : (addCounterpart owner source ledger).ledger.minted = ledger.minted + 1 :=
      ends_addCounterpart_minted active.isSplit
    intro fresh
    have small : ledger.minted < 2 ^ 128 := by omega
    have sound := booked small.le
    obtain ⟨-, _, _, _, _, lone⟩ := Ledger.lone_of_settlement (sound.new small) decided
    obtain ⟨amount?, absorbs⟩ := lone.absorption_next_ok
    have ends : (addCounterpart owner source).Ends ledger fun _ after => ledger.Renews after := by
      rw [ends_addCounterpart_of_lone lone, absorbs]
      exact lone.renews_paired small sound.shelved
    exact ends

end DoubleEntry
