import DoubleEntry.Proofs.Locality
import DoubleEntry.Proofs.Membership
import DoubleEntry.Proofs.References

/-! # Commands that tell of no damage

A ledger that can be reached resolves, and so does whatever a command makes of it on its way. Therefore a
command that names what exists does not end with a fault of damage or of something missing, and no split
that is to take up a difference is left with its amount because it is not expressed in the commodity.
Two commands may still tell of damage where nothing is damaged; `Command.MayBlame` says when.
-/

namespace DoubleEntry

open DoubleEntry.Action Ledger

/-- An outcome that tells of nothing missing, of no damage but excused one, and of no value that was left
out because of its commodity. -/
structure Outcome.Clean {α J β : Type} (excused : Set Damage) (outcome : Outcome α J β) : Prop where
  result : ∀ fault, outcome.result = .error fault → fault.isInternal = true →
    ∃ damage ∈ excused, fault = .damaged damage
  notices : Notice.valueNotApplied ∉ outcome.notices

/-- A fault is not reported as a value that was left out. -/
theorem Fault.notice?_ne (fault : Fault) : fault.notice? ≠ some .valueNotApplied := by
  unfold Fault.notice?
  split <;> nofun

namespace Action

variable {α J β γ : Type} {excused : Set Damage} {ledger : Ledger α J} {fault : Fault}

/-! ## Ways of putting actions together -/

theorem clean_pure {value : β} : ((pure value : Action α J β) ledger).Clean excused :=
  ⟨nofun, List.not_mem_nil⟩

theorem clean_update {change : Ledger α J → Ledger α J} : (update change ledger).Clean excused :=
  ⟨nofun, List.not_mem_nil⟩

theorem clean_fail (expected : fault.isInternal = false) :
    ((fail fault : Action α J β) ledger).Clean excused :=
  ⟨fun _ same internal => by cases same; simp [expected] at internal, List.not_mem_nil⟩

theorem clean_raise (expected : fault.isInternal = true → ∃ damage ∈ excused, fault = .damaged damage) :
    ((raise fault : Action α J β) ledger).Clean excused :=
  ⟨fun _ same internal => by cases same; exact expected internal,
    fun inside => Fault.notice?_ne fault (Option.mem_toList.mp inside)⟩

theorem clean_invalid {cause : Invalid} :
    ((raise (.invalid cause) : Action α J β) ledger).Clean excused := clean_raise nofun

theorem clean_bind {action : Action α J β} {next : β → Action α J γ} (holds : β → Ledger α J → Prop)
    (first : (action ledger).Clean excused)
    (ends : action.Ends ledger fun result after => ∀ value, result = .ok value → holds value after)
    (rest : ∀ value after, holds value after → (next value after).Clean excused) :
    ((action >>= next) ledger).Clean excused := by
  change (andThen action next ledger).Clean excused
  unfold Ends at ends
  unfold andThen
  generalize action ledger = outcome at first ends
  obtain ⟨_ | value, after, told⟩ := outcome
  · exact ⟨fun fault same => first.result fault (by cases same; rfl), first.notices⟩
  · obtain ⟨later, more⟩ := rest value after (ends value rfl)
    exact ⟨later, fun inside => (List.mem_append.mp inside).elim first.notices more⟩

theorem clean_ask {query : Ledger α J → Except Fault β}
    (answers : ∀ fault, query ledger = .error fault → fault.isInternal = true →
      ∃ damage ∈ excused, fault = .damaged damage) : (ask query ledger).Clean excused := by
  unfold ask
  cases answer : query ledger with
  | error fault => exact clean_raise (answers fault answer)
  | ok value => exact clean_pure

theorem clean_ask_bind {query : Ledger α J → Except Fault β} {next : β → Action α J γ}
    (ordinary : Ordinary (query ledger))
    (goesOn : ∀ value, query ledger = .ok value → (next value ledger).Clean excused) :
    ((ask query >>= next) ledger).Clean excused := by
  rw [ask_bind]
  cases answer : query ledger with
  | error fault =>
    have expected := ordinary fault answer
    exact clean_raise fun internal => by simp [expected] at internal
  | ok value => exact goesOn value answer

theorem clean_update_bind {change : Ledger α J → Ledger α J} {next : Unit → Action α J γ}
    (rest : (next () (change ledger)).Clean excused) : ((update change >>= next) ledger).Clean excused :=
  rest

theorem mint_bind (next : Ident → Action α J γ) (ledger : Ledger α J) : (mint >>= next) ledger =
    next (Ident.ofNat ledger.minted) { ledger with minted := ledger.minted + 1 } := rfl

theorem clean_report {notice : Notice} (other : notice ≠ .valueNotApplied) :
    (report notice ledger).Clean excused :=
  ⟨nofun, fun inside => other (List.mem_singleton.mp inside).symm⟩

theorem clean_report_bind {notice : Notice} {next : Unit → Action α J γ}
    (other : notice ≠ .valueNotApplied) (rest : (next () ledger).Clean excused) :
    ((report notice >>= next) ledger).Clean excused :=
  ⟨rest.result, fun inside => (List.mem_cons.mp inside).elim (fun same => other same.symm) rest.notices⟩

theorem clean_onFault {action : Action α J β} {undo : Ledger α J → Ledger α J}
    (clean : (action ledger).Clean excused) : (action.onFault undo ledger).Clean excused := by
  unfold onFault
  generalize action ledger = outcome at clean
  obtain ⟨_ | _, _, _⟩ := outcome
  · exact ⟨fun fault same => clean.result fault (by cases same; rfl), clean.notices⟩
  · exact clean

theorem clean_reply {action : Action α J β} {reply : β → γ} (clean : (action ledger).Clean excused) :
    ((action >>= fun value => pure (reply value)) ledger).Clean excused :=
  clean_bind (fun _ _ => True) clean (fun _ _ => trivial) fun _ _ _ => clean_pure

theorem clean_ite {condition : Prop} [Decidable condition] {yes no : Action α J β}
    (left : condition → (yes ledger).Clean excused) (right : ¬ condition → (no ledger).Clean excused) :
    ((if condition then yes else no) ledger).Clean excused := by
  split
  · exact left ‹_›
  · exact right ‹_›

theorem clean_forM {ι : Type} {items : List ι} {step : ι → Action α J Unit}
    (each : ∀ item ledger, (step item ledger).Clean excused) : (items.forM step ledger).Clean excused := by
  induction items generalizing ledger with
  | nil => exact clean_pure
  | cons item rest ih =>
    exact clean_bind (fun _ _ => True) (each item ledger) (fun _ _ => trivial) fun _ _ _ => ih

/-! ## Guards -/

theorem clean_open {next : Unit → Action α J γ} {owner : TransactionId}
    (known : (ledger.transaction? owner).isSome) (rest : (next () ledger).Clean excused) :
    ((ensureOpen owner >>= next) ledger).Clean excused := by
  rw [ensureOpen_eq]
  exact clean_ask_bind (ordinary_checkOpen known) fun _ _ => rest

theorem clean_editable {next : Unit → Action α J γ} {split : SplitId} (resolves : ledger.Resolves)
    (live : (ledger.split? split).isSome) (rest : (next () ledger).Clean excused) :
    ((ensureEditable split >>= next) ledger).Clean excused := by
  rw [ensureEditable_eq]
  exact clean_ask_bind (resolves.checkEditable live) fun _ _ => rest

theorem clean_finite [Scalar α] {next : Unit → Action α J γ} {role : NumberRole} {number : α}
    (rest : (next () ledger).Clean excused) :
    ((ensureFinite role number >>= next) ledger).Clean excused := by
  rw [ensureFinite_eq]
  split
  · exact rest
  · exact clean_bind (fun _ _ => False) clean_invalid (ends_raise.mpr fun _ same => nomatch same)
      fun _ _ never => never.elim

end Action

/-- Entering the register of an unknown account is reported as such, and is no fault. -/
theorem Action.clean_enterRegister {α J : Type} {excused : Set Damage} {ledger : Ledger α J}
    {account : AccountId} {split : SplitId} : (enterRegister account split ledger).Clean excused := by
  rw [enterRegister, read_bind]
  split
  · exact clean_update
  · exact clean_report (by simp)

/-! ## Passes -/

namespace Undamaged

variable {α J : Type} {excused : Set Damage} {before ledger : Ledger α J} {owner : TransactionId}
  {split edited target : SplitId} {base : Option Commodity}

theorem ofLinks_intact : OfLinks before.Intact where
  linked _ _ ownership membership _ intact := intact.linked ownership membership
  reentered _ _ _ _ intact := intact.modifyAccount _ _

variable [Scalar α]

/-- The counterpart of a split that exists is in the account of that split. -/
theorem intact_withCounterpart {entry : Split α} (intact : before.Intact ledger)
    (isSplit : ledger.split? edited = some entry) (known : (ledger.transaction? owner).isSome) :
    before.Intact (ledger.withCounterpart owner entry) := by
  let created : Ledger α J := { ledger with
    splits := ledger.splits.insert ledger.nextSplit entry.counterpart, minted := ledger.minted + 1 }
  have comes : before.Intact created := intact.insertSplit _ nofun fun home within =>
    intact.homes ((accountOf?_eq isSplit).trans within)
  have live : (created.split? ledger.nextSplit).isSome := by
    rw [split?, Table.get?_insert, if_pos rfl]
    rfl
  have named : before.Intact (created.modifySplit ledger.nextSplit fun s => { s with parent := some owner }) :=
    comes.setParent _ fun other same => Option.some.inj same ▸ known
  exact ofLinks_intact.alike (mark_alike _ _) (named.push _ ((isSome_split?_modifySplit ..).trans live))

theorem keeps_rebalanceSplit : Keeps before.Intact (rebalanceSplit edited) := by
  intro ledger intact
  rw [rebalanceSplit, ends_settle]
  rcases decided : ledger.settlement edited with _ | _ | ⟨transaction, target, base⟩ | ⟨owner, source⟩
  · exact intact
  · exact intact
  · dsimp only
    cases ledger.absorption transaction target base with
    | error _ => exact intact
    | ok _ => exact intact.linked absorbed_sameLinks.ownership absorbed_sameLinks.membership
  · obtain ⟨rfl, entry, transaction, _, active, -⟩ := settlement_eq_pair decided
    dsimp only
    rw [ends_addCounterpart (split_eq_ok_iff.mpr active.isSplit)]
    have paired := intact_withCounterpart intact active.isSplit (by rw [active.isOwner]; rfl)
    refine (ends_settle_sameLinks _).imp fun result after same => ?_
    have settled := paired.linked same.ownership same.membership
    cases result with
    | error _ => exact settled
    | ok _ =>
      dsimp only
      cases entry.account with
      | none => exact settled
      | some account =>
        exact ofLinks_intact.alike (recompute_alike _ account) (settled.modifyAccount _ _)

/-- A split that can be expressed in a commodity is not left out. -/
theorem clean_applyWorth (resolves : ledger.Resolves) (live : (ledger.split? split).isSome) (value : α)
    (expressed : ∀ entry, ledger.split? split = some entry →
      ledger.valuation split entry base ≠ .ok .inexpressible) :
    (applyWorth split value base ledger).Clean excused := by
  refine clean_ask_bind (ordinary_split live) fun entry isSplit => ?_
  rw [split_eq_ok_iff] at isSplit
  refine clean_ask_bind (resolves.valuation isSplit) fun valuation valued => ?_
  cases valuation with
  | priced =>
    dsimp only
    split
    · exact clean_report_bind nofun clean_pure
    · exact clean_pure
  | shares => exact clean_pure
  | inexpressible => exact absurd valued (expressed entry isSplit)

theorem clean_absorb {transaction : Transaction} (resolves : ledger.Resolves)
    (found : ledger.transaction? owner = some transaction) (inside : target ∈ transaction.splits)
    (common : ledger.commonCommodity owner edited = .ok base) :
    (absorb owner target base ledger).Clean excused := by
  have known : (ledger.transaction? owner).isSome := by
    rw [found]
    rfl
  have live := resolves.lists found target inside
  refine clean_ask_bind (resolves.transactionValue known common) fun sum _ => ?_
  refine clean_bind (fun _ after => ledger.Intact after) ?_ ?_ fun applied after intact => ?_
  · exact clean_applyWorth resolves live (-sum) fun entry isSplit valued =>
      expressible_of_commonCommodity found common inside isSplit valued rfl
  · exact (ofLinks_intact.applyWorth target (-sum) base ledger resolves.intact).imp
      fun _ _ intact _ _ => intact
  · rw [read_bind]
    have still := intact.split live
    split
    · exact clean_ask_bind (ordinary_split still) fun _ _ => clean_invalid
    · have marked := ofLinks_intact.alike (after.mark_alike target) intact
      exact clean_update_bind <| clean_ask_bind (ordinary_split (marked.split live)) fun _ _ =>
        clean_update

theorem ordinary_settlement (resolves : ledger.Resolves) (live : (ledger.split? edited).isSome) :
    Ordinary (ledger.settlement edited) := by
  refine (ordinary_split live).bind fun entry isSplit => ?_
  rw [split_eq_ok_iff] at isSplit
  cases parent : entry.parent with
  | none => exact ordinary_ok
  | some owner =>
    have known := resolves.parents (by rw [parentOf?, isSplit, Option.bind_some, parent])
    refine (ordinary_transaction known).bind fun transaction found => ?_
    rw [transaction_eq_ok_iff] at found
    split
    · exact ordinary_ok
    · rcases shape : transaction.splits with _ | ⟨source, others⟩
      · exact ordinary_ok
      · refine (resolves.commonCommodity known live).bind fun base _ => ?_
        split
        · exact ordinary_ok
        · cases others with
          | cons _ _ => exact ordinary_ok
          | nil =>
            have first := resolves.lists found source (shape ▸ List.mem_cons_self)
            refine (ordinary_split first).bind fun _ _ => ?_
            split <;> exact ordinary_ok

theorem clean_settle {lone : TransactionId → SplitId → Action α J Unit} (resolves : ledger.Resolves)
    (live : (ledger.split? edited).isSome)
    (pairs : ∀ owner, (ledger.transaction? owner).isSome → (lone owner edited ledger).Clean excused) :
    (settle lone edited ledger).Clean excused := by
  rw [settle_eq]
  refine clean_ask_bind (ordinary_settlement resolves live) fun settlement decided => ?_
  cases settlement with
  | rest => exact clean_pure
  | absorb parent target base =>
    obtain ⟨_, transaction, active, isTarget, common⟩ := settlement_eq_absorb decided
    exact clean_absorb resolves active.isOwner (Transaction.mem_of_target? isTarget) common
  | pair parent source =>
    obtain ⟨rfl, _, transaction, _, active, -⟩ := settlement_eq_pair decided
    exact pairs parent (by rw [active.isOwner]; rfl)

/-- A counterpart is settled while its account does not list it yet. -/
theorem clean_addCounterpart (resolves : ledger.Resolves) (live : (ledger.split? edited).isSome)
    (known : (ledger.transaction? owner).isSome) :
    (addCounterpart owner edited ledger).Clean excused := by
  refine clean_ask_bind (ordinary_split live) fun entry isSplit => ?_
  rw [split_eq_ok_iff] at isSplit
  have paired := intact_withCounterpart resolves.intact isSplit known
  have next : ((ledger.withCounterpart owner entry).split? ledger.nextSplit).isSome := by
    rw [split?_next]
    rfl
  rw [mint_bind]
  refine clean_update_bind (clean_bind (fun _ _ => True) ?_ (fun _ _ => trivial) fun _ after _ => ?_)
  · have settles : (settle (fun _ _ => pure ()) ledger.nextSplit (ledger.withCounterpart owner entry)).Clean
        excused := clean_settle paired.toResolves next fun _ _ => clean_pure
    exact settles
  · cases entry.account with
    | none => exact clean_pure
    | some account =>
      refine clean_bind (fun _ _ => True) ?_ (fun _ _ => trivial) fun _ _ _ => clean_update
      exact clean_enterRegister

theorem clean_rebalanceSplit (resolves : ledger.Resolves) (live : (ledger.split? edited).isSome) :
    (rebalanceSplit edited ledger).Clean excused :=
  clean_settle resolves live fun _ known => clean_addCounterpart resolves live known

theorem clean_rebalanceTransaction (resolves : ledger.Resolves)
    (known : (ledger.transaction? owner).isSome) :
    (rebalanceTransaction owner ledger).Clean excused := by
  refine clean_ask_bind (ordinary_transaction known) fun transaction found => ?_
  cases isSource : transaction.source? with
  | none => exact clean_pure
  | some source =>
    have inside := List.mem_of_mem_head? isSource
    exact clean_rebalanceSplit resolves (resolves.lists (transaction_eq_ok_iff.mp found) source inside)

/-! ## Fields of splits -/

omit [Scalar α] in
theorem clean_editSplit {change : Split α → Split α} (resolves : ledger.Resolves)
    (live : (ledger.split? split).isSome) : (editSplit split change ledger).Clean excused :=
  clean_editable resolves live (clean_update_bind clean_update)

theorem clean_setReconcile (resolves : ledger.Resolves) (live : (ledger.split? split).isSome)
    (state : Reconcile) : (setReconcile split state ledger).Clean excused := by
  have edits : Keeps ledger.Intact (editSplit split fun s : Split α => { s with reconcile := state }) :=
    ofLinks_intact.editSplit (by constructor <;> exact fun _ => rfl) split
  refine clean_bind (fun _ after => ledger.Intact after) (clean_editSplit resolves live)
    ((edits ledger resolves.intact).imp fun _ _ intact _ _ => intact) fun _ after intact => ?_
  exact clean_ask_bind (ordinary_split (intact.split live)) fun _ _ => clean_update

theorem clean_editNumbers {change : Split α → Split α} (resolves : ledger.Resolves)
    (live : (ledger.split? split).isSome) (keeps : Split.KeepsLinks change) :
    (editNumbers split change ledger).Clean excused := by
  have intact := ofLinks_intact.modifySplit keeps split _ <|
    ofLinks_intact.alike (ledger.mark_alike split) resolves.intact
  exact clean_editable resolves live <| clean_update_bind <| clean_update_bind <|
    clean_rebalanceSplit intact.toResolves (intact.split live)

theorem clean_setValue (resolves : ledger.Resolves) (live : (ledger.split? split).isSome) (value : α) :
    (setValue split value ledger).Clean excused := by
  refine clean_finite (clean_editable resolves live ?_)
  refine clean_ask_bind (ordinary_split live) fun entry _ => ?_
  split
  · exact clean_invalid
  · exact clean_editNumbers resolves live (by constructor <;> exact fun _ => rfl)

/-- What is set in a commodity in which the split is not expressed is left out, and that is no fault. -/
theorem ordinary_setSplitWorth (resolves : ledger.Resolves) (live : (ledger.split? split).isSome)
    (value : α) : (setSplitWorth split value base).Ends ledger fun result _ => Ordinary result := by
  obtain ⟨entry, isSplit⟩ := Option.isSome_iff_exists.mp live
  rw [setSplitWorth, ensureFinite_eq, ends_bind, ends_ite]
  split
  · rw [ends_pure, ensureEditable_eq]
    dsimp only
    rw [ends_bind, ends_ask]
    cases editable : ledger.checkEditable split with
    | error fault => exact ordinary_error (resolves.checkEditable live fault editable)
    | ok _ =>
      dsimp only
      rw [ends_bind]
      cases valued : ledger.valuation split entry base with
      | error fault =>
        have expected := ordinary_error (β := Unit) (resolves.valuation isSplit fault valued)
        simpa only [applyWorth, ends_bind, ends_ask, split_eq_ok_iff.mpr isSplit, valued] using expected
      | ok valuation =>
        rw [ends_applyWorth (split_eq_ok_iff.mpr isSplit) valued]
        exact ordinary_ok
  · exact ordinary_error rfl

/-! ## Fields of transactions -/

omit [Scalar α] in
theorem clean_editTransaction {change : Transaction → Transaction}
    (known : (ledger.transaction? owner).isSome) : (editTransaction owner change ledger).Clean excused :=
  clean_open known (clean_update_bind clean_update)

omit [Scalar α] in
theorem clean_reposition (split : SplitId) (ledger : Ledger α J) :
    (reposition split ledger).Clean excused := by
  rw [reposition, read_bind]
  cases ledger.accountOf? split with
  | none => exact clean_pure
  | some account => exact clean_enterRegister

omit [Scalar α] in
theorem clean_setPosted (known : (ledger.transaction? owner).isSome) (date : Instant) :
    (setPosted owner date ledger).Clean excused := by
  refine clean_open known (clean_update_bind ?_)
  rw [read_bind]
  exact clean_bind (fun _ _ => True) (clean_forM clean_reposition) (fun _ _ => trivial)
    fun _ _ _ => clean_update

omit [Scalar α] in
theorem clean_setDates (known : (ledger.transaction? owner).isSome) (date : Instant) :
    (setDates owner date ledger).Clean excused := by
  refine clean_open known (clean_update_bind (clean_setPosted ?_ date))
  exact (isSome_transaction?_modifyTransaction ..).trans known

omit [Scalar α] in
theorem clean_setDay (known : (ledger.transaction? owner).isSome) (day month : Nat) (year : Int) :
    (setDay owner day month year ledger).Clean excused := by
  unfold setDay
  cases Instant.onDay? ⟨year, month, day⟩ postingHour with
  | some date => exact clean_setDates known date
  | none => exact clean_invalid

omit [Scalar α] in
theorem clean_setCaptionOf (live : (ledger.split? split).isSome) (caption : Caption) (text : String) :
    (setCaptionOf split caption text ledger).Clean excused :=
  clean_ask_bind (ordinary_split live) fun _ _ => clean_update_bind clean_update

/-- A text that is shared by two splits blames a source that stands alone with an amount. -/
theorem clean_setCaption {transaction : Transaction} (resolves : ledger.Resolves)
    (found : ledger.transaction? owner = some transaction) (occupied : transaction.splits ≠ [])
    (caption : Caption) (text : String)
    (blames : ∀ source entry, transaction.splits = [source] → ledger.enforces = true →
      ledger.split? source = some entry → Scalar.isZero entry.amount = false →
        .unbalancedLoneSplit owner ∈ excused) :
    (setCaption owner caption text ledger).Clean excused := by
  have known : (ledger.transaction? owner).isSome := by
    rw [found]
    rfl
  refine clean_open known (clean_ask_bind (ordinary_transaction known) fun again isAgain => ?_)
  obtain rfl := Option.some.inj (found.symm.trans (transaction_eq_ok_iff.mp isAgain))
  have live := resolves.lists found
  have sets (split : SplitId) (inside : split ∈ transaction.splits) :
      (setCaptionOf split caption text ledger).Clean excused := clean_setCaptionOf (live split inside) _ _
  rcases shape : transaction.splits with _ | ⟨first, _ | ⟨second, _ | ⟨third, rest⟩⟩⟩
  · exact absurd shape occupied
  · have inside : first ∈ transaction.splits := by simp [shape]
    dsimp only
    rw [read_bind]
    split
    · rename_i enforced
      refine clean_ask_bind (ordinary_split (live first inside)) fun entry isSplit => ?_
      split
      · exact sets first inside
      · rename_i amount
        exact clean_raise fun _ => ⟨_, blames first entry shape enforced
          (split_eq_ok_iff.mp isSplit) (by simpa using amount), rfl⟩
    · exact sets first inside
  · have edits := ofLinks_intact.setCaptionOf first caption text ledger resolves.intact
    refine clean_bind (fun _ after => ledger.Intact after) (sets first (by simp [shape]))
      (edits.imp fun _ _ intact _ _ => intact) fun _ after intact => ?_
    exact clean_setCaptionOf (intact.split (live second (by simp [shape]))) caption text
  · exact sets first (by simp [shape])

/-! ## Coming, going and moving -/

theorem clean_discardSplit (live : (ledger.split? split).isSome) :
    (discardSplit split ledger).Clean excused := by
  refine clean_ask_bind (ordinary_split live) fun entry _ => ?_
  cases entry.parent with
  | some _ => exact clean_invalid
  | none => exact clean_update

omit [Scalar α] in
theorem clean_removeSplit (known : (ledger.transaction? owner).isSome) :
    (removeSplit owner split ledger).Clean excused := by
  refine clean_open known (clean_ask_bind (ordinary_transaction known) fun transaction _ => ?_)
  exact clean_ite (fun _ => clean_invalid) fun _ => clean_ite (fun _ => clean_invalid) fun _ =>
    clean_update_bind (clean_update_bind clean_update)

theorem clean_enterAccount {account : AccountId} (resolves : ledger.Resolves)
    (held : (ledger.account? account).isSome) (live : (ledger.split? split).isSome) :
    (enterAccount account split ledger).Clean excused := by
  refine clean_ask_bind (ordinary_account held) fun _ _ => clean_editable resolves live <|
    clean_update_bind <| clean_update_bind ?_
  exact clean_bind (fun _ _ => True) clean_enterRegister (fun _ _ => trivial) fun _ _ _ => clean_update

theorem clean_leaveAccount (resolves : ledger.Resolves) (live : (ledger.split? split).isSome) :
    (Action.leaveAccount split ledger).Clean excused :=
  clean_editable resolves live (clean_update_bind clean_update)

omit [Scalar α] in
theorem clean_otherSplit (resolves : ledger.Resolves) : (otherSplit split ledger).Clean excused := by
  rw [otherSplit, read_bind]
  cases isSplit : ledger.split? split with
  | none => exact clean_pure
  | some entry =>
    dsimp only
    cases parent : entry.parent with
    | none => exact clean_report_bind nofun (clean_fail rfl)
    | some owner =>
      have known := resolves.parents (by rw [parentOf?, isSplit, Option.bind_some, parent])
      exact clean_ask_bind (ordinary_transaction known) fun _ _ => clean_pure

theorem clean_splitWorth (resolves : ledger.Resolves) : (splitWorth split base ledger).Clean excused := by
  rw [splitWorth, read_bind]
  cases isSplit : ledger.split? split with
  | none => exact clean_pure
  | some entry =>
    refine clean_ask_bind (resolves.valuation isSplit) fun valuation _ => ?_
    cases valuation.worth? entry with
    | some _ => exact clean_pure
    | none => exact clean_report_bind nofun clean_pure

/-- A split that exists goes to a transaction that exists. -/
theorem clean_adopt (resolves : ledger.Resolves) (live : (ledger.split? split).isSome)
    (known : (ledger.transaction? owner).isSome) :
    (adopt rebalanceSplit owner split ledger).Clean excused := by
  have named : ledger.Intact (ledger.modifySplit split fun s => { s with parent := some owner }) :=
    resolves.intact.setParent split fun other same => Option.some.inj same ▸ known
  have listed := named.push owner (named.split live)
  have marked := ofLinks_intact.alike (mark_alike _ split) listed
  exact clean_update_bind <| clean_update_bind <| clean_update_bind <|
    clean_rebalanceSplit marked.toResolves (marked.split live)

omit [Scalar α] in
theorem intact_parted (intact : before.Intact ledger) : before.Intact (ledger.parted owner split) :=
  (intact.drop owner split).setParent split nofun

omit [Scalar α] in
theorem intact_rejoined (intact : before.Intact ledger) (live : (before.split? split).isSome)
    (known : (before.transaction? owner).isSome) (place : Option Nat) :
    before.Intact (ledger.rejoined owner split place) := by
  cases place with
  | none => exact intact
  | some index =>
    have listed : before.Intact (ledger.modifyTransaction owner (·.insertAt index split)) := by
      refine intact.modifyTransaction fun found isOwner other inside => ?_
      rcases List.mem_append.mp inside with early | later
      · exact intact.lists isOwner other (List.mem_of_mem_take early)
      · rcases List.mem_cons.mp later with rfl | late
        · exact intact.split live
        · exact intact.lists isOwner other (List.mem_of_mem_drop late)
    exact listed.setParent split fun other same => Option.some.inj same ▸ listed.transaction known

theorem keeps_release (live : (before.split? split).isSome)
    (known : (before.transaction? owner).isSome) : Keeps before.Intact (release owner split) :=
  keeps_release_of (fun _ => intact_parted) (fun _ place intact => intact_rejoined intact live known place)
    fun _ => keeps_rebalanceSplit

/-- What is left of a transaction is settled, and nothing is lost by that. -/
theorem clean_release (resolves : ledger.Resolves) (known : (ledger.transaction? owner).isSome) :
    (release owner split ledger).Clean excused := by
  refine clean_open known (clean_ask_bind (ordinary_transaction known) fun transaction _ => ?_)
  dsimp only
  split
  · exact clean_invalid
  · have parted : ledger.Intact (ledger.parted owner split) := intact_parted resolves.intact
    have still := parted.transaction known
    refine clean_update_bind <| clean_update_bind <| clean_ask_bind (ordinary_transaction still)
      fun rest found => ?_
    cases isSource : rest.source? with
    | none => exact clean_pure
    | some source =>
      have live := parted.lists (transaction_eq_ok_iff.mp found) source (List.mem_of_mem_head? isSource)
      exact clean_onFault (clean_rebalanceSplit parted.toResolves live)

theorem clean_appendSplit (resolves : ledger.Resolves) (live : (ledger.split? split).isSome)
    (known : (ledger.transaction? owner).isSome) :
    (appendSplit owner split ledger).Clean excused := by
  refine clean_open known (clean_ask_bind (ordinary_split live) fun entry isSplit => ?_)
  rw [split_eq_ok_iff] at isSplit
  cases parent : entry.parent with
  | none => exact clean_adopt resolves live known
  | some former =>
    refine clean_ite (fun _ => clean_update_bind ?_) fun _ => ?_
    · have dropped := resolves.intact.drop owner split
      exact clean_adopt dropped.toResolves live (dropped.transaction known)
    · have owns := resolves.parents (by rw [parentOf?, isSplit, Option.bind_some, parent])
      have released := keeps_release live owns ledger resolves.intact
      exact clean_bind (fun _ after => ledger.Intact after) (clean_release resolves owns)
        (released.imp fun _ _ intact _ _ => intact) fun _ after intact =>
          clean_adopt intact.toResolves (intact.split live) (intact.transaction known)

/-! ## Sessions -/

/-- Ownership that is sound leads somewhere. -/
theorem resolves_of_owned {α J : Type} {ledger : Ledger α J} (owned : ledger.Owned)
    (homes : ∀ split account, ledger.accountOf? split = some account →
      (ledger.account? account).isSome) : ledger.Resolves where
  lists found split inside := by
    obtain ⟨entry, isSplit, -⟩ := parent_eq_iff.mp ((owned.mem_iff found).mp inside)
    rw [isSplit]
    rfl
  parents named := by
    obtain ⟨transaction, found⟩ := owned.known (parentOf?_eq_some_iff.mp named)
    rw [found]
    rfl
  homes within := homes _ _ within

theorem intact_leaveAccount (intact : before.Intact ledger) (split : SplitId) :
    before.Intact (ledger.leaveAccount split) := by
  unfold Ledger.leaveAccount
  split
  · rename_i account _
    exact ofLinks_intact.alike (recompute_alike _ account) (intact.modifyAccount account _)
  · exact intact

/-- A split that leaves a transaction and the ledger is missed by no other transaction. -/
theorem resolves_without {transaction : Transaction} (owned : ledger.Owned)
    (resolves : ledger.Resolves) (named : ledger.ownership.named split = some (some owner))
    (found : ledger.transaction? owner = some transaction) (more : 1 < transaction.splits.length) :
    (ledger.without owner split).Resolves := by
  have sound := Ownership.owned_without owned named found more
  have marked := ofLinks_intact.alike (ledger.mark_alike split) resolves.intact
  have left := intact_leaveAccount (marked.drop owner split) split
  refine resolves_of_owned sound fun other account within => ?_
  obtain ⟨entry, isSplit, within⟩ := Option.bind_eq_some_iff.mp within
  rw [without, split?_eraseSplit] at isSplit
  split at isSplit
  · cases isSplit
  · exact left.homes (by rw [accountOf?, isSplit, Option.bind_some, within])

omit [Scalar α] in
/-- What the journal refuses is no damage of the ledger. -/
theorem clean_toJournal (call : J → Except JournalFault Unit × J) :
    (toJournal (α := α) call ledger).Clean excused := by
  refine ⟨fun fault failed internal => ?_, List.not_mem_nil⟩
  change (call ledger.journal).1.mapError JournalFault.toFault = .error fault at failed
  cases answer : (call ledger.journal).1 with
  | ok _ => simp [answer, Except.mapError] at failed
  | error reason =>
    simp only [answer, Except.mapError, Except.error.injEq] at failed
    subst failed
    cases internal

section Sessions

variable [Journal J α]

omit [Scalar α] in
theorem clean_writeRecord (known : (ledger.transaction? owner).isSome) (kind : EventKind) :
    (writeRecord kind owner ledger).Clean excused := by
  have ordinary : Ordinary (ledger.snapshot owner) :=
    (ordinary_transaction known).bind fun _ _ => ordinary_ok
  refine clean_ask_bind ordinary fun snapshot _ => ?_
  rw [read_bind, mint_bind]
  exact clean_toJournal _

omit [Scalar α] in
theorem clean_beginEdit (resolves : ledger.Resolves) (known : (ledger.transaction? owner).isSome)
    (defer : Bool) : (beginEdit owner defer ledger).Clean excused := by
  refine clean_ask_bind (ordinary_transaction known) fun _ _ => clean_update_bind ?_
  have links : OfLinks ledger.Intact := ofLinks_intact
  have opened := links.setEditState owner (.editing defer) ledger resolves.intact
  have written := links.toJournal (Journal.openLog (α := α)) _ opened
  exact clean_bind (fun _ after => ledger.Intact after) (clean_toJournal _)
    (written.imp fun _ _ intact _ _ => intact) fun _ _ intact =>
      clean_writeRecord (intact.transaction known) _

theorem clean_closeEdit (resolves : ledger.Resolves) (known : (ledger.transaction? owner).isSome) :
    (closeEdit owner ledger).Clean excused := by
  refine clean_ask_bind (ordinary_transaction known) fun transaction _ =>
    clean_update_bind <| clean_update_bind <| clean_update_bind ?_
  have links : OfLinks ledger.Intact := ofLinks_intact
  have ordered := links.restoreOrder transaction.splits ledger resolves.intact
  have renewed := links.recomputeAll transaction.splits _ ordered
  have closed := links.setEditState owner .closed _ renewed
  exact clean_writeRecord (closed.transaction known) _

theorem clean_commitEdit (resolves : ledger.Resolves) (known : (ledger.transaction? owner).isSome) :
    (commitEdit owner ledger).Clean excused := by
  rw [commitEdit_eq]
  refine clean_open known (clean_update_bind ?_)
  have links : OfLinks ledger.Intact := ofLinks_intact
  have opened := links.setEditState owner (.editing false) ledger resolves.intact
  have balanced := keeps_rebalanceTransaction (fun _ => keeps_rebalanceSplit) owner _ opened
  exact clean_bind (fun _ after => ledger.Intact after)
    (clean_rebalanceTransaction opened.toResolves (opened.transaction known))
    (balanced.imp fun _ _ intact _ _ => intact) fun _ after intact =>
      clean_closeEdit intact.toResolves (intact.transaction known)

theorem clean_discardTransaction (resolves : ledger.Resolves)
    (known : (ledger.transaction? owner).isSome) :
    (discardTransaction owner ledger).Clean excused := by
  have links : OfLinks ledger.Intact := ofLinks_intact
  have written := links.writeRecord .destroyed owner ledger resolves.intact
  exact clean_bind (fun _ after => ledger.Intact after) (clean_writeRecord known _)
    (written.imp fun _ _ intact _ _ => intact) fun _ after intact =>
      clean_ask_bind (ordinary_transaction (intact.transaction known)) fun _ _ =>
        clean_update_bind clean_update

/-- A transaction that lists the split goes as a whole, or lists others that go on without it. -/
theorem clean_destroySplit (owned : ledger.Owned) (resolves : ledger.Resolves)
    (live : (ledger.split? split).isSome) : (destroySplit split ledger).Clean excused := by
  refine clean_ask_bind (ordinary_split live) fun entry isSplit => ?_
  rw [split_eq_ok_iff] at isSplit
  cases parent : entry.parent with
  | none => exact clean_report_bind nofun (clean_fail rfl)
  | some owner =>
    have named := parent_eq_iff.mpr ⟨entry, isSplit, parent⟩
    obtain ⟨transaction, found⟩ := owned.known named
    have known : (ledger.transaction? owner).isSome := by
      rw [found]
      rfl
    refine clean_open known (clean_ask_bind (ordinary_transaction known) fun again isAgain => ?_)
    obtain rfl := Option.some.inj (found.symm.trans (transaction_eq_ok_iff.mp isAgain))
    have inside := (owned.mem_iff found).mpr named
    refine clean_ite (fun apart => absurd inside (by simpa using apart)) fun _ =>
      clean_ite (fun _ => clean_discardTransaction resolves known) fun several => ?_
    have erased := resolves_without owned resolves named found (by omega)
    have still : ((ledger.without owner split).transaction? owner).isSome := by
      rw [transaction?_without found]
      rfl
    exact clean_update_bind <| clean_update_bind <| clean_update_bind <|
      clean_rebalanceTransaction erased still

end Sessions

end Undamaged

/-! ## All commands -/

namespace Command

variable {α J : Type}

/-- Everything that a command names exists. -/
structure Live (ledger : Ledger α J) (command : Command α) : Prop where
  split : ∀ {id}, command.split? = some id → (ledger.split? id).isSome
  transaction : ∀ {id}, command.transaction? = some id → (ledger.transaction? id).isSome
  account : ∀ {id}, command.account? = some id → (ledger.account? id).isSome

/-- The damage that a command may tell of though nothing is damaged: a text that is shared by two splits
blames a source that stands alone with an amount under enforcement, and a sum in a commodity that is asked
for blames a split that is not expressed in it. -/
inductive MayBlame [Scalar α] (ledger : Ledger α J) : Command α → Damage → Prop
  | lone {transaction : TransactionId} {caption : Caption} {text : String} {source : SplitId}
    {entry : Split α} (alone : ledger.splitsOf transaction = [source])
    (enforced : ledger.enforces = true) (isSource : ledger.split? source = some entry)
    (amount : Scalar.isZero entry.amount = false) :
    MayBlame ledger (.setCaption transaction caption text) (.unbalancedLoneSplit transaction)
  | inexpressible {transaction : TransactionId} {skip : Option SplitId} {base : Option Commodity}
    {id : SplitId} {entry : Split α} (listed : id ∈ ledger.splitsOf transaction)
    (counted : skip ≠ some id) (isSplit : ledger.split? id = some entry)
    (valued : ledger.valuation id entry base = .ok .inexpressible) :
    MayBlame ledger (.transactionValue transaction skip base) (.cannotBeValued id transaction base)

end Command

namespace Undamaged

variable {α J : Type} [Scalar α] [Journal J α] {ledger : Ledger α J}

omit [Journal J α] in
/-- A sum that is asked for in any commodity blames splits that are not expressed in it. -/
theorem clean_transactionValue (resolves : ledger.Resolves) {id : TransactionId}
    (known : (ledger.transaction? id).isSome) (skip : Option SplitId) (base : Option Commodity) :
    (ask (·.transactionValue id skip base) ledger).Clean
      {damage | (Command.transactionValue id skip base).MayBlame ledger damage} := by
  obtain ⟨transaction, found⟩ := Option.isSome_iff_exists.mp known
  refine clean_ask fun fault failed internal => ?_
  rw [Ledger.transactionValue, transaction_eq_ok_iff.mpr found, ok_bind] at failed
  have live : ∀ entry ∈ transaction.splits.filter fun entry => skip ≠ some entry,
      (ledger.split? entry).isSome :=
    fun entry kept => resolves.lists found entry (List.mem_of_mem_filter kept)
  rcases resolves.addWorths live failed with expected | ⟨entry, kept, split, isSplit, valued, same⟩
  · simp [expected] at internal
  · obtain ⟨inside, counted⟩ := List.mem_filter.mp kept
    refine ⟨_, .inexpressible ?_ (by simpa using counted) isSplit valued, same⟩
    rwa [splitsOf_eq found]

/-- A command that names what exists tells of no damage but what it may blame; only one command leaves a
value out. -/
theorem clean_act (owned : ledger.Owned) (resolves : ledger.Resolves) {command : Command α}
    (live : command.Live ledger)
    (other : ∀ split value base, command ≠ .setSplitWorth split value base) :
    (command.act (J := J) ledger).Clean {damage | command.MayBlame ledger damage} := by
  cases command with
  | createSplit | createTransaction => exact clean_pure
  | discardSplit split => exact clean_reply (clean_discardSplit (live.split rfl))
  | setPriceAndAmount split price amount =>
    exact clean_reply <| clean_finite <| clean_finite <|
      clean_editNumbers resolves (live.split rfl) (by constructor <;> exact fun _ => rfl)
  | setPrice split _ | setAmount split _ =>
    exact clean_reply <| clean_finite <|
      clean_editNumbers resolves (live.split rfl) (by constructor <;> exact fun _ => rfl)
  | setValue split value => exact clean_reply (clean_setValue resolves (live.split rfl) value)
  | setMemo split _ | setAction split _ | setSplitDocref split _ | setReconciledOn split _ =>
    exact clean_reply (clean_editSplit resolves (live.split rfl))
  | setReconcile split state => exact clean_reply (clean_setReconcile resolves (live.split rfl) state)
  | setNum transaction _ | setDescription transaction _ | setDocref transaction _
  | setEntered transaction _ => exact clean_reply (clean_editTransaction (live.transaction rfl))
  | setPosted transaction date => exact clean_reply (clean_setPosted (live.transaction rfl) date)
  | setDay transaction day month year =>
    exact clean_reply (clean_setDay (live.transaction rfl) day month year)
  | setToday transaction => exact clean_reply (clean_setDates (live.transaction rfl) ledger.now)
  | setCaption transaction caption text =>
    obtain ⟨found, isFound⟩ := Option.isSome_iff_exists.mp (live.transaction rfl)
    refine clean_reply <| clean_setCaption resolves isFound (owned.nonempty isFound) caption text
      fun source entry alone enforced isSource amount => ?_
    exact .lone ((splitsOf_eq isFound).trans alone) enforced isSource amount
  | appendSplit transaction split =>
    exact clean_reply (clean_appendSplit resolves (live.split rfl) (live.transaction rfl))
  | removeSplit transaction split => exact clean_reply (clean_removeSplit (live.transaction rfl))
  | enterAccount account split =>
    exact clean_reply (clean_enterAccount resolves (live.account rfl) (live.split rfl))
  | leaveAccount split => exact clean_reply (clean_leaveAccount resolves (live.split rfl))
  | otherSplit split => exact clean_reply (clean_otherSplit resolves)
  | beginEdit transaction defer =>
    exact clean_reply (clean_beginEdit resolves (live.transaction rfl) defer)
  | commitEdit transaction => exact clean_reply (clean_commitEdit resolves (live.transaction rfl))
  | destroyTransaction transaction =>
    have known := live.transaction rfl
    exact clean_reply (clean_open known (clean_discardTransaction resolves known))
  | destroySplit split => exact clean_reply (clean_destroySplit owned resolves (live.split rfl))
  | splitWorth split base => exact clean_reply (clean_splitWorth resolves)
  | setSplitWorth split value base => exact absurd rfl (other split value base)
  | transactionValue transaction skip base =>
    exact clean_reply (clean_transactionValue resolves (live.transaction rfl) skip base)
  | commonCommodity transaction trigger =>
    exact clean_ask_bind (resolves.commonCommodity (live.transaction rfl) (live.split rfl)) fun _ _ =>
      clean_pure
  | rebalanceSplit split => exact clean_reply (clean_rebalanceSplit resolves (live.split rfl))
  | rebalanceTransaction transaction =>
    exact clean_reply (clean_rebalanceTransaction resolves (live.transaction rfl))
  | imbalance transaction =>
    exact clean_ask_bind (resolves.imbalance (live.transaction rfl)) fun _ _ => clean_pure
  | isBalanced transaction =>
    exact clean_ask_bind (resolves.isBalanced (live.transaction rfl)) fun _ _ => clean_pure

end Undamaged

variable {α J : Type} [Scalar α] [Journal J α] {ledger : Ledger α J}

theorem Reachable.resolves [ZeroPriced α] (reached : Reachable Deed.LeavesRegisters ledger) :
    ledger.Resolves := by
  refine Undamaged.resolves_of_owned reached.owned fun split account within => ?_
  obtain ⟨holder, held⟩ := reached.booked.known (account_eq_iff.mpr within)
  rw [held]
  rfl

/-- Whatever was asked of a ledger before: a command that names splits, transactions and accounts that
exist does not fail for something missing, and tells of no damage except as `Command.MayBlame` has it.
The only command that may leave a value out because a split is not expressed in the commodity is the one
that sets the worth of this split; no rebalancing does. -/
theorem Reachable.command_undamaged [ZeroPriced α] (reached : Reachable Deed.LeavesRegisters ledger)
    (command : Command α) (live : command.Live ledger) :
    (∀ missing, (command.run ledger).result ≠ .error (.missing missing)) ∧
    (∀ damage, (command.run ledger).result = .error (.damaged damage) →
      command.MayBlame ledger damage) ∧
    (.valueNotApplied ∈ (command.run ledger).notices →
      ∃ split value base, command = .setSplitWorth split value base) := by
  by_cases sets : ∃ split value base, command = .setSplitWorth split value base
  · obtain ⟨split, value, base, rfl⟩ := sets
    have ordinary : Ordinary ((Command.setSplitWorth split value base).run ledger).result := by
      change (Command.act (.setSplitWorth split value base)).Ends ledger fun result _ => Ordinary result
      refine ends_bind.mpr ?_
      refine (Undamaged.ordinary_setSplitWorth reached.resolves (live.split rfl) value).imp ?_
      rintro (_ | _) after ordinary
      · exact ordinary_error (ordinary _ rfl)
      · exact ordinary_ok
    exact ⟨fun _ failed => absurd (ordinary _ failed) nofun,
      fun _ failed => absurd (ordinary _ failed) nofun, fun _ => ⟨split, value, base, rfl⟩⟩
  · have clean := Undamaged.clean_act reached.owned reached.resolves live
      fun split value base same => sets ⟨split, value, base, same⟩
    refine ⟨fun missing failed => ?_, fun damage failed => ?_, fun told => absurd told clean.notices⟩
    · obtain ⟨damage, -, same⟩ := clean.result _ failed rfl
      cases same
    · obtain ⟨damage, blamed, same⟩ := clean.result _ failed rfl
      cases same
      exact blamed

/-- The commit of a one-sided transaction brings a counterpart in, blames neither side and leaves no value
out. -/
theorem Reachable.command_undamaged_oneSided :
    let outcome := (Command.commitEdit ⟨.ofNat 2⟩).run (oneSided (5 : Float) 1 false)
    outcome.result ≠ .error (.damaged (.unbalancedLoneSplit ⟨.ofNat 2⟩)) ∧
      outcome.result ≠ .error (.missing (.split ⟨.ofNat 1⟩)) ∧ .valueNotApplied ∉ outcome.notices := by
  have leaves : ∀ deed ∈ Deed.oneSided (5 : Float) 1 false, deed.LeavesRegisters := by
    simp [Deed.oneSided, Deed.LeavesRegisters]
  have reached : Reachable Deed.LeavesRegisters (oneSided (5 : Float) 1 false) :=
    (Reachable.start _ _).after _ leaves (by decide +kernel)
  have live : (Command.commitEdit ⟨.ofNat 2⟩).Live (oneSided (5 : Float) 1 false) := by
    refine ⟨fun named => ?_, fun named => ?_, fun named => ?_⟩
    · cases named
    · cases named
      decide +kernel
    · cases named
  obtain ⟨missing, blames, leavesOut⟩ := Reachable.command_undamaged reached _ live
  refine ⟨fun failed => ?_, missing _, fun told => ?_⟩
  · cases blames _ failed
  · obtain ⟨_, _, _, same⟩ := leavesOut told
    cases same

end DoubleEntry
